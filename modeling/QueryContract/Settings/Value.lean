/-!
# `Settings.Value` — values of a settings document

A settings document is written in TOML. Its value is a table; this file holds the values and the rules by which
tables grow while a document is read from top to bottom.

* `Value` — strings, booleans, numbers, moments, arrays and tables;
* `Node`  — a value that may still grow: a table remembers how it came about, and only some ways of naming it again
  are allowed;
* `assign`, `openTable`, `openSeries`, `within` — what a line of a document does to the tables;
* `Node.close` — the value at the end.

No key is ever given two values: every one of these functions fails instead.
-/

namespace QueryContract.Settings

/-- A value. Numbers and moments keep the text they were written with. -/
inductive Value where
  | string (s : String)
  | boolean (b : Bool)
  | number (written : String)
  | moment (written : String)
  | array (items : List Value)
  | table (entries : List (String × Value))

/-! ## Growing tables -/

/-- How a table came about. -/
inductive Origin where
  /-- By a header that names a table inside it. -/
  | implied
  /-- By a dotted key. -/
  | dotted
  /-- By its own header. -/
  | header
deriving DecidableEq

/-- A value in a document that is still read: final, a table that may grow, or an array of tables of which the last
    one may grow. -/
inductive Node where
  | final (v : Value)
  | branch (origin : Origin) (entries : List (String × Node))
  | series (earlier : List Value) (last : List (String × Node))

/-- The entries of a growing table, in the order in which they came. -/
abbrev Entries := List (String × Node)

/-- The entries with the value of a known key replaced. -/
def replace (key : String) (node : Node) (es : Entries) : Entries :=
  es.map fun entry => if entry.1 = key then (key, node) else entry

/-- A dotted key given a value. It must be new, and may lead through tables that dotted keys made. -/
def assign (v : Value) : List String → Entries → Option Entries
  | [], _ => none
  | [key], es =>
    match es.lookup key with
    | none => some (es ++ [(key, .final v)])
    | some _ => none
  | key :: more, es =>
    match es.lookup key with
    | none => (assign v more []).map fun sub => es ++ [(key, .branch .dotted sub)]
    | some (.branch .dotted sub) => (assign v more sub).map fun sub => replace key (.branch .dotted sub) es
    | some _ => none

mutual

/-- The value of a node that grows no further. -/
def Node.close : Node → Value
  | .final v => v
  | .branch _ entries => .table (closeAll entries)
  | .series earlier last => .array (earlier ++ [.table (closeAll last)])

/-- The values of all entries. -/
def closeAll : List (String × Node) → List (String × Value)
  | [] => []
  | (key, node) :: rest => (key, node.close) :: closeAll rest

end

/-- A change inside the table that a header path names; missing tables on the way are implied, and of an array of
    tables the last one is meant. -/
def within (change : Entries → Option Entries) : List String → Entries → Option Entries
  | [], es => change es
  | key :: more, es =>
    match es.lookup key with
    | none => (within change more []).map fun sub => es ++ [(key, .branch .implied sub)]
    | some (.branch origin sub) =>
      (within change more sub).map fun sub => replace key (.branch origin sub) es
    | some (.series earlier last) =>
      (within change more last).map fun last => replace key (.series earlier last) es
    | some (.final _) => none

/-- A table header. The table must be new, or so far only implied. -/
def openTable (key : String) (es : Entries) : Option Entries :=
  match es.lookup key with
  | none => some (es ++ [(key, .branch .header [])])
  | some (.branch .implied sub) => some (replace key (.branch .header sub) es)
  | some _ => none

/-- A header of an array of tables, which starts another table in it. -/
def openSeries (key : String) (es : Entries) : Option Entries :=
  match es.lookup key with
  | none => some (es ++ [(key, .series [] [])])
  | some (.series earlier last) =>
    some (replace key (.series (earlier ++ [.table (closeAll last)]) []) es)
  | some _ => none

end QueryContract.Settings
