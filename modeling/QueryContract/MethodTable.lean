import QueryContract.Analyzer

/-!
# `MethodTable` — the described methods of a repository

A table keeps the descriptions of one repository's methods by key, in the order in which they were made. A method whose
key is known is not described again, whatever else its signature says.

* `MethodTable.describe`  — the entry of a method, made on first use;
* `MethodTable.bootstrap` — a table with all methods of a list, unless one is rejected;
* `find?`, `named`, `entries` — look-ups.

An entry is identified by the span in which it was made.
-/

namespace QueryContract

/-- A description with its key and the span in which it was made. -/
structure Entry where
  key : String
  span : Nat
  description : Description

/-- The described methods of a repository, oldest first. -/
structure MethodTable where
  analyzer : Analyzer
  repository : Repository
  entries : List Entry

namespace MethodTable

/-- The table without entries. -/
def empty (analyzer : Analyzer) (repository : Repository) : MethodTable := ⟨analyzer, repository, []⟩

/-- The entry of the given key. -/
def find? (t : MethodTable) (key : String) : Option Entry := t.entries.find? (·.key = key)

/-- The entries of the methods with the given name, oldest first. -/
def named (t : MethodTable) (name : String) : List Entry :=
  t.entries.filter (·.description.method.name = name)

/-- The number of entries. -/
def length (t : MethodTable) : Nat := t.entries.length

/-- Whether there are no entries. -/
def isEmpty (t : MethodTable) : Bool := t.entries.isEmpty

/-- The table with one more entry. -/
def add (t : MethodTable) (e : Entry) : MethodTable := { t with entries := t.entries ++ [e] }

/-- The entry of a method: the known one of its key, or a new one if the analyzer accepts the method. -/
def describe (t : MethodTable) (m : Method) (trace : Trace) :
    Except Rejection Entry × MethodTable × Trace :=
  match t.find? m.key with
  | some entry => (.ok entry, t, trace.withHit m.key)
  | none =>
    match t.analyzer.trace t.repository m trace with
    | (.ok description, after) =>
      let entry := ⟨m.key, trace.nextSpan, description⟩
      (.ok entry, t.add entry, after)
    | (.error rejection, after) => (.error rejection, t, after)

/-- All methods of the list described in order, up to the first rejected one. -/
def describeAll (t : MethodTable) : List Method → Trace → Except Rejection MethodTable × Trace
  | [], trace => (.ok t, trace)
  | m :: ms, trace =>
    match t.describe m trace with
    | (.ok _, t', after) => t'.describeAll ms after
    | (.error rejection, _, after) => (.error rejection, after)

/-- A new table with all methods of the list, unless one is rejected. -/
def bootstrap (analyzer : Analyzer) (repository : Repository) (ms : List Method) (trace : Trace) :
    Except Rejection MethodTable × Trace :=
  (empty analyzer repository).describeAll ms trace

end MethodTable

end QueryContract
