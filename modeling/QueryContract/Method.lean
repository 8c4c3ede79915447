import QueryContract.DeclaredType

/-!
# `Method` — method declarations

A declared data-access method: its name, the type that declares it, its parameters in order and its result type.
Within one repository a method is identified by its **key**, the name with the parameter types; overloads differ in
their keys, while parameter names, the declaring type and the result play no part.

* `DeclaredParameter`, `Method`;
* `Method.text` — how a declaration is displayed;
* `Method.key` and `Method.keys` — identity, and the distinct keys of several methods in order.
-/

namespace QueryContract

/-- A parameter as declared: its name, if it has one, and its type. -/
structure DeclaredParameter where
  name : Option String
  type : DeclaredType
deriving DecidableEq

/-- A method declaration; without a declared result it returns the unit type. -/
structure Method where
  name : String
  owner : Option String := none
  parameters : List DeclaredParameter := []
  result : DeclaredType := .unit
deriving DecidableEq

/-- Texts one after the other, with a comma and a space between them. -/
def commaSeparated : List (List Char) → List Char
  | [] => []
  | [item] => item
  | item :: items => item ++ ',' :: ' ' :: commaSeparated items

namespace DeclaredParameter

/-- The displayed characters: `name: type`, or the type alone. -/
def write (p : DeclaredParameter) : List Char :=
  match p.name with
  | some name => name.toList ++ ':' :: ' ' :: p.type.write
  | none => p.type.write

end DeclaredParameter

namespace Method

/-! ## Building -/

/-- The method, declared in the type named `owner`. -/
def declaredIn (m : Method) (owner : String) : Method := { m with owner := some owner }

/-! ## Display -/

/-- The displayed characters: `owner::name(parameters) -> result`, without what is absent. -/
def write (m : Method) : List Char :=
  (match m.owner with
    | some owner => owner.toList ++ [':', ':']
    | none => []) ++
  m.name.toList ++ '(' :: commaSeparated (m.parameters.map DeclaredParameter.write) ++ ')' ::
  (if m.result.isUnit then [] else [' ', '-', '>', ' '] ++ m.result.write)

/-- The displayed text of a declaration. -/
def text (m : Method) : String := String.ofList m.write

instance : ToString Method := ⟨text⟩

/-! ## Identity -/

/-- The characters of the key: the name, then the parameter types in parentheses. -/
def keyChars (m : Method) : List Char :=
  m.name.toList ++ '(' :: commaSeparated (m.parameters.map (·.type.write)) ++ [')']

/-- What identifies the method within its repository. -/
def key (m : Method) : String := String.ofList m.keyChars

/-- A key put into an ascending list of keys, unless it is there. -/
def insertKey (k : String) : List String → List String
  | [] => [k]
  | x :: xs => if k < x then k :: x :: xs else if k = x then x :: xs else x :: insertKey k xs

/-- The distinct keys of the methods, in ascending order of their code points. -/
def keys (ms : List Method) : List String := (ms.map key).foldr insertKey []

@[simp] theorem mem_insertKey {k x : String} {xs : List String} :
    x ∈ insertKey k xs ↔ x = k ∨ x ∈ xs := by
  fun_induction insertKey k xs with
  | case1 => simp
  | case2 => simp
  | case3 => simp
  | case4 y ys _ _ ih => simp only [List.mem_cons, ih]; grind

/-- Every method's key is listed, and nothing else. -/
theorem mem_keys {ms : List Method} {k : String} : k ∈ keys ms ↔ ∃ m ∈ ms, m.key = k := by
  induction ms with
  | nil => simp [keys]
  | cons m ms ih =>
    simp only [keys, List.map_cons, List.foldr_cons, mem_insertKey] at ih ⊢
    rw [ih]
    simp [eq_comm]

end Method

end QueryContract
