import QueryContract.Violation

/-!
# `Parameters` — classified parameters

The parameters of a method with their positions and roles. No role is played twice: `Parameters.classify` refuses
that, naming the first such role in the order of `Role.all` with all its positions.

* `classify`, and what it keeps (`length_annotate`, `getElem?_annotate`);
* `positionOf`, `parameterOf`, `has`, `roles`, `bindable` — the views of a classified list.
-/

namespace QueryContract

/-- A parameter with its position and role; without a role it binds a query value. -/
structure Parameter where
  position : Nat
  name : Option String
  type : DeclaredType
  role : Option Role
deriving DecidableEq

/-- Whether the parameter binds a query value. -/
def Parameter.isBindable (p : Parameter) : Bool := p.role.isNone

/-- The classified parameters of a method, in order. -/
structure Parameters where
  list : List Parameter
deriving DecidableEq

namespace Parameters

/-! ## Classification -/

/-- Each parameter with its position, counted from `start`, and its role. -/
def annotate (classifier : Classifier) : Nat → List DeclaredParameter → List Parameter
  | _, [] => []
  | start, p :: ps => ⟨start, p.name, p.type, classifier p⟩ :: annotate classifier (start + 1) ps

/-- The positions of the parameters that play `role`, in ascending order. -/
def positionsOf (list : List Parameter) (role : Role) : List Nat :=
  (list.filter (·.role = some role)).map (·.position)

/-- The first role that more than one parameter plays. -/
def duplicate? (list : List Parameter) : Option Role :=
  Role.all.find? fun role => 1 < (positionsOf list role).length

/-- The parameters with their roles, unless a role is played more than once. -/
def classify (classifier : Classifier) (declared : List DeclaredParameter) :
    Except Malformed Parameters :=
  let list := annotate classifier 0 declared
  match duplicate? list with
  | some role => .error (.duplicateRole role (positionsOf list role))
  | none => .ok ⟨list⟩

@[simp] theorem length_annotate (classifier : Classifier) (start : Nat) (ps : List DeclaredParameter) :
    (annotate classifier start ps).length = ps.length := by
  induction ps generalizing start with
  | nil => rfl
  | cons p ps ih => simp [annotate, ih]

/-- The parameter at each index has that position, its declared name and type, and the role it was given. -/
theorem getElem?_annotate (classifier : Classifier) (start i : Nat) (ps : List DeclaredParameter) :
    (annotate classifier start ps)[i]? =
      ps[i]?.map fun p => ⟨start + i, p.name, p.type, classifier p⟩ := by
  induction ps generalizing start i with
  | nil => simp [annotate]
  | cons p ps ih =>
    cases i with
    | zero => simp [annotate]
    | succ i => simp [annotate, ih, Nat.add_comm 1 i, Nat.add_assoc]

/-! ## Views -/

/-- The parameter that plays `role`. -/
def parameterOf (ps : Parameters) (role : Role) : Option Parameter :=
  ps.list.find? (·.role = some role)

/-- The position of the parameter that plays `role`. -/
def positionOf (ps : Parameters) (role : Role) : Option Nat := (ps.parameterOf role).map (·.position)

/-- Whether a parameter plays `role`. -/
def has (ps : Parameters) (role : Role) : Bool := ps.list.any (·.role = some role)

/-- The roles that are played, in the order of `Role.all`. -/
def roles (ps : Parameters) : List Role := Role.all.filter ps.has

/-- The parameters that bind query values, in order. -/
def bindable (ps : Parameters) : List Parameter := ps.list.filter Parameter.isBindable

/-- The number of parameters. -/
def length (ps : Parameters) : Nat := ps.list.length

/-- Whether there are no parameters. -/
def isEmpty (ps : Parameters) : Bool := ps.list.isEmpty

/-- The parameter at a position. -/
def get? (ps : Parameters) (position : Nat) : Option Parameter := ps.list[position]?

end Parameters

end QueryContract
