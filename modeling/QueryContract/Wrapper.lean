import QueryContract.Violation

/-!
# `Wrapper` — how results are delivered

A wrapper is a generic type that changes how a result is delivered and not what it is. A table knows wrappers by
simple name; adding a wrapper is one more entry.

* `Delivery`, `Wrapper`, `WrapperTable`;
* `WrapperTable.register` — a new entry, or a new value for a known name (`find?_register`);
* `WrapperTable.unwrap` — one layer off; `WrapperTable.peelOptional` — all optional layers off.
-/

namespace QueryContract

/-- How a wrapper delivers its content. -/
inductive Delivery where
  /-- A value that may be absent. -/
  | optional
  /-- A value that comes later. -/
  | async
  /-- A publisher of values. -/
  | reactive
  /-- A sequence that is materialised lazily. -/
  | sequence
deriving DecidableEq

namespace Delivery

/-- The displayed name. -/
def text : Delivery → String
  | optional => "optional"
  | async => "async"
  | reactive => "reactive"
  | sequence => "sequence"

/-- All kinds of delivery. -/
def all : List Delivery := [optional, async, reactive, sequence]

/-- The kind of delivery with the given name. -/
def ofText? (name : String) : Option Delivery := all.find? (·.text = name)

@[simp] theorem ofText?_text (d : Delivery) : ofText? d.text = some d := by cases d <;> decide

end Delivery

/-- What is known about a wrapper: its delivery, and whether it holds at most one value. -/
structure Wrapper where
  delivery : Delivery
  singleValued : Bool
deriving DecidableEq

/-- Known wrappers by simple name, in ascending order of the names. -/
structure WrapperTable where
  entries : List (String × Wrapper)
deriving DecidableEq

namespace WrapperTable

/-! ## Entries -/

/-- The table without wrappers. -/
def empty : WrapperTable := ⟨[]⟩

/-- The entries with one more, in its place; an entry of the same name is replaced. -/
def insert (name : String) (w : Wrapper) : List (String × Wrapper) → List (String × Wrapper)
  | [] => [(name, w)]
  | entry :: rest =>
    if name < entry.1 then (name, w) :: entry :: rest
    else if name = entry.1 then (name, w) :: rest
    else entry :: insert name w rest

/-- The table that knows `name` as the wrapper `w`. -/
def register (t : WrapperTable) (name : String) (w : Wrapper) : WrapperTable := ⟨insert name w t.entries⟩

/-- The wrapper of the given simple name. -/
def find? (t : WrapperTable) (name : String) : Option Wrapper := t.entries.lookup name

/-- A registered name has the value registered last, and no other name is touched. -/
theorem find?_register (t : WrapperTable) (name : String) (w : Wrapper) (x : String) :
    (t.register name w).find? x = if x = name then some w else t.find? x := by
  obtain ⟨entries⟩ := t
  simp only [find?, register]
  induction entries with
  | nil =>
    by_cases h : x = name
    · simp [insert, h]
    · simp [insert, List.lookup_cons, h, beq_eq_false_iff_ne.2 h]
  | cons entry rest ih =>
    obtain ⟨known, v⟩ := entry
    simp only [insert]
    split
    · by_cases h : x = name
      · simp [h]
      · simp [List.lookup_cons, h, beq_eq_false_iff_ne.2 h]
    · split
      · next _ he =>
        subst he
        by_cases h : x = name
        · simp [h]
        · simp [List.lookup_cons, beq_eq_false_iff_ne.2 h, h]
      · next _ hne =>
        by_cases hx : x = known
        · simp [hx, Ne.symm hne]
        · simp [List.lookup_cons, beq_eq_false_iff_ne.2 hx, ih]

/-! ## Types -/

/-- Whether the type is a known wrapper. -/
def isWrapper (t : WrapperTable) (type : DeclaredType) : Bool := (t.find? type.simpleName).isSome

/-- Whether the type is a known wrapper that holds at most one value. -/
def isSingleValued (t : WrapperTable) (type : DeclaredType) : Bool :=
  (t.find? type.simpleName).any (·.singleValued)

/-- Whether the type is a known wrapper that holds any number of values. -/
def isMultiValued (t : WrapperTable) (type : DeclaredType) : Bool :=
  (t.find? type.simpleName).any fun w => !w.singleValued

/-- Whether the type is a known optional wrapper. -/
def isOptional (t : WrapperTable) (type : DeclaredType) : Bool :=
  (t.find? type.simpleName).any fun w => w.delivery = .optional

/-- One wrapper layer taken off; other types are unchanged, and a wrapper without an argument is refused. -/
def unwrap (t : WrapperTable) (type : DeclaredType) : Except Malformed DeclaredType :=
  if t.isWrapper type then
    match type.firstArg? with
    | some inner => .ok inner
    | none => .error (.missingTypeArgument type)
  else .ok type

/-- Optional layers taken off until another type, or an optional type without an argument, is reached. -/
def peelOptional (t : WrapperTable) : DeclaredType → DeclaredType
  | .mk path [] => .mk path []
  | .mk path (first :: more) =>
    if t.isOptional (.mk path (first :: more)) then t.peelOptional first else .mk path (first :: more)

/-! ## Built-in wrappers -/

/-- The wrappers known from the start: optional, asynchronous, reactive and sequence types. -/
def builtin : WrapperTable :=
  [ ("Option", ⟨.optional, true⟩), ("Optional", ⟨.optional, true⟩),
    ("Future", ⟨.async, true⟩), ("CompletableFuture", ⟨.async, true⟩), ("ListenableFuture", ⟨.async, true⟩),
    ("JoinHandle", ⟨.async, true⟩),
    ("Mono", ⟨.reactive, true⟩), ("Single", ⟨.reactive, true⟩), ("Maybe", ⟨.reactive, true⟩),
    ("Flux", ⟨.reactive, false⟩), ("Flowable", ⟨.reactive, false⟩), ("Observable", ⟨.reactive, false⟩),
    ("Publisher", ⟨.reactive, false⟩),
    (Marker.streamable, ⟨.sequence, false⟩) ].foldl (fun t entry => t.register entry.1 entry.2) empty

end WrapperTable

end QueryContract
