import QueryContract.Text.Blank

/-!
# `DeclaredType` — types as a declaration writes them

A type is the segments of its path and its type arguments. Everything that is decided about a type looks at its
**simple name**, the last segment; the rest of the path is kept for display.

* `DeclaredType`, its accessors and the pseudo-names of arrays and of the unit type;
* `write` / `text` — how a type is displayed.

What a generic parameter stands for is the subject of `DeclaredType.Binding`.
-/

namespace QueryContract

/-- A declared type: the segments of its path and its type arguments. -/
inductive DeclaredType where
  | mk (path : List String) (args : List DeclaredType)
deriving Inhabited

/-- The simple name of arrays and slices. -/
def arrayName : String := "[]"

/-- The simple name of the unit type. -/
def unitName : String := "()"

/-- The segments of a path text: cut at double colons, trimmed, empty ones dropped. The two pseudo-names are
    single segments. -/
def pathOf (name : String) : List String :=
  let name := Text.trim name.toList
  if name = arrayName.toList ∨ name = unitName.toList then [String.ofList name]
  else (((Text.segments name).map Text.trim).filter (· ≠ [])).map String.ofList

/-- The last segment of a path; an empty path counts as the unit type. -/
def simpleNameOf (path : List String) : String := path.getLast?.getD unitName

namespace DeclaredType

/-! ## Parts -/

/-- The segments of the path. -/
def path : DeclaredType → List String
  | mk p _ => p

/-- The type arguments, in order. -/
def args : DeclaredType → List DeclaredType
  | mk _ as => as

/-- A type with the given arguments, its path given as text. -/
def generic (name : String) (args : List DeclaredType) : DeclaredType := mk (pathOf name) args

/-- A type without arguments, its path given as text. -/
def named (name : String) : DeclaredType := generic name []

/-- An array or slice of `element`. -/
def array (element : DeclaredType) : DeclaredType := mk [arrayName] [element]

/-- The unit type, which a method without a declared result returns. -/
def unit : DeclaredType := mk [unitName] []

/-- The name that decides what a type is. -/
def simpleName (t : DeclaredType) : String := simpleNameOf t.path

/-- The path with its double colons. -/
def pathText (t : DeclaredType) : String := String.ofList (Text.join (t.path.map String.toList))

/-- The first type argument, if there is one. -/
def firstArg? (t : DeclaredType) : Option DeclaredType := t.args.head?

/-- Whether the type has no arguments. -/
def isRaw (t : DeclaredType) : Bool := t.args.isEmpty

/-- Whether the type is an array or slice. -/
def isArray (t : DeclaredType) : Bool := t.simpleName == arrayName

/-- Whether the type is the unit type. -/
def isUnit (t : DeclaredType) : Bool := t.simpleName == unitName

@[simp] theorem path_mk (p : List String) (as : List DeclaredType) : (mk p as).path = p := rfl
@[simp] theorem args_mk (p : List String) (as : List DeclaredType) : (mk p as).args = as := rfl
@[simp] theorem mk_path_args (t : DeclaredType) : mk t.path t.args = t := by cases t; rfl
@[simp] theorem simpleName_mk (p : List String) (as : List DeclaredType) :
    (mk p as).simpleName = simpleNameOf p := rfl
@[simp] theorem firstArg?_mk (p : List String) (as : List DeclaredType) :
    (mk p as).firstArg? = as.head? := rfl

/-! ## Equality -/

mutual

/-- Equality of types: the same path and, one by one, the same arguments. -/
def decEq : (a b : DeclaredType) → Decidable (a = b)
  | mk p as, mk q bs =>
    if hp : p = q then
      match decEqAll as bs with
      | isTrue h => isTrue (by rw [hp, h])
      | isFalse h => isFalse (fun e => h (by injection e))
    else isFalse (fun e => hp (by injection e))

/-- Equality of argument lists. -/
def decEqAll : (as bs : List DeclaredType) → Decidable (as = bs)
  | [], [] => isTrue rfl
  | [], _ :: _ => isFalse nofun
  | _ :: _, [] => isFalse nofun
  | a :: as, b :: bs =>
    match decEq a b, decEqAll as bs with
    | isTrue h, isTrue hs => isTrue (by rw [h, hs])
    | isFalse h, _ => isFalse (fun e => h (List.cons.inj e).1)
    | _, isFalse hs => isFalse (fun e => hs (List.cons.inj e).2)

end

instance : DecidableEq DeclaredType := decEq

/-! ## Display -/

mutual

/-- The displayed characters: `[element]` for arrays, else the path and the arguments in angle brackets. -/
def write : DeclaredType → List Char
  | mk path args =>
    if simpleNameOf path = arrayName then
      match args with
      | [] => arrayName.toList
      | element :: _ => '[' :: write element ++ [']']
    else
      Text.join (path.map String.toList) ++
        match args with
        | [] => []
        | first :: more => '<' :: write first ++ writeMore more ++ ['>']

/-- Arguments after the first, each behind a comma and a space. -/
def writeMore : List DeclaredType → List Char
  | [] => []
  | next :: more => ',' :: ' ' :: write next ++ writeMore more

end

/-- The displayed text of a type. -/
def text (t : DeclaredType) : String := String.ofList t.write

@[simp] theorem toList_text (t : DeclaredType) : t.text.toList = t.write := by simp [text]

instance : ToString DeclaredType := ⟨text⟩

end DeclaredType

end QueryContract
