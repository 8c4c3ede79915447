import QueryContract.DeclaredType

/-!
# `DeclaredType.Binding` — what generic parameters stand for

A repository binds its generic parameters to types. Only a type without arguments and with a single-segment path
can be a parameter, so `T` is replaced while `T<X>` and `a::T` keep their head.

* `Bindings` — pairs of a name and its type, the latest first, so that a later binding hides an earlier one;
* `substitute` — all parameters replaced at once; what was put in is not looked at again (`substitute_nil`);
* `Bindings.comp` — one substitution after another as a single one.
-/

namespace QueryContract

/-- Bound names with their types, the latest binding first. -/
abbrev Bindings := List (String × DeclaredType)

namespace Bindings

/-- The bindings with `name` bound to `type` from now on. -/
def bind (σ : Bindings) (name : String) (type : DeclaredType) : Bindings := (name, type) :: σ

/-- What a path without arguments stands for: a single bound segment for its type, all else for nothing. -/
def standsFor (σ : Bindings) : List String → Option DeclaredType
  | [name] => σ.lookup name
  | _ => none

@[simp] theorem standsFor_nil : ∀ path, standsFor [] path = none
  | [] => rfl
  | [_] => rfl
  | _ :: _ :: _ => rfl

/-- A qualified or empty path stands for nothing. -/
theorem standsFor_of_length {path : List String} (h : path.length ≠ 1) (σ : Bindings) :
    σ.standsFor path = none := by
  fun_cases standsFor σ path <;> simp_all

end Bindings

namespace DeclaredType

mutual

/-- The type with every bound parameter replaced by its type. -/
def substitute (σ : Bindings) : DeclaredType → DeclaredType
  | mk path [] => (σ.standsFor path).getD (mk path [])
  | mk path (a :: as) => mk path (substitute σ a :: substituteAll σ as)

/-- `substitute` on each type of a list. -/
def substituteAll (σ : Bindings) : List DeclaredType → List DeclaredType
  | [] => []
  | a :: as => substitute σ a :: substituteAll σ as

end

theorem substituteAll_eq_map (σ : Bindings) (as : List DeclaredType) :
    substituteAll σ as = as.map (substitute σ) := by
  induction as with
  | nil => rfl
  | cons a as ih => simp [substituteAll, ih]

/-- Without arguments the path decides. -/
@[simp] theorem substitute_raw (σ : Bindings) (path : List String) :
    substitute σ (mk path []) = (σ.standsFor path).getD (mk path []) := rfl

/-- A type with arguments keeps its path. -/
@[simp] theorem substitute_cons (σ : Bindings) (path : List String) (a : DeclaredType)
    (as : List DeclaredType) :
    substitute σ (mk path (a :: as)) = mk path (substitute σ a :: as.map (substitute σ)) := by
  simp [substitute, substituteAll_eq_map]

mutual

/-- Where nothing is bound, nothing is replaced. -/
theorem substitute_nil : ∀ t, substitute [] t = t
  | mk path [] => by rw [substitute_raw, Bindings.standsFor_nil, Option.getD_none]
  | mk path (a :: as) => by rw [substitute, substitute_nil a, substituteAll_nil as]

theorem substituteAll_nil : ∀ as, substituteAll [] as = as
  | [] => rfl
  | a :: as => by rw [substituteAll, substitute_nil a, substituteAll_nil as]

end

end DeclaredType

/-- One substitution after another: the types of `τ` are themselves substituted by `σ`. -/
def Bindings.comp (τ σ : Bindings) : Bindings :=
  List.map (fun entry => (entry.1, entry.2.substitute σ)) τ ++ σ

end QueryContract
