import QueryContract.Settings.Scalar

/-!
# `Settings.Document` — reading a settings document

A TOML document is a sequence of lines: assignments of a value to a key, and headers that say to which table the
assignments below them belong.

* `value` — a value, with arrays and inline tables;
* `line`  — one line;
* `entriesOf?` — the top-level entries of a document, or nothing if it is not well formed.
-/

namespace QueryContract.Settings

open QueryContract.Parser

/-! ## Values -/

/-- A key with its value, inside an inline table. -/
def field (value : Parser (List Char) Value) : Parser (List Char) (List String × Value) := do
  let path ← keyPath
  gap
  char '='
  gap
  let v ← value
  gap
  pure (path, v)

/-- A comma between items. -/
def comma : Parser (List Char) Unit := do
  char ','
  gap

/-- Values between brackets. -/
def arrayOf (value : Parser (List Char) Value) : Parser (List Char) Value := do
  char '['
  gap
  let (items, _) ← separated (startsWith [']']) comma (do
    let v ← value
    gap
    pure v)
  char ']'
  pure (.array items)

/-- Keys with values between braces. -/
def inlineTable (value : Parser (List Char) Value) : Parser (List Char) Value := do
  char '\x7b'
  gap
  let (fields, _) ← separated (startsWith ['\x7d']) comma (field value)
  char '\x7d'
  match fields.foldlM (fun es (path, v) => assign v path es) [] with
  | some es => pure (.table (closeAll es))
  | none => failure

/-- A string. -/
def stringValue : Parser (List Char) Value := do pure (.string (← quoted))

/-- A value in which arrays and inline tables are nested at most `depth` deep, the values inside it read by `self`. -/
def valueRule (self : Nat → Parser (List Char) Value) (depth : Nat) : Parser (List Char) Value := fun s =>
  match s, depth with
  | '[' :: _, inner + 1 => arrayOf (self inner) s
  | '\x7b' :: _, inner + 1 => inlineTable (self inner) s
  | '[' :: _, 0 | '\x7b' :: _, 0 => none
  | '"' :: _, _ | '\'' :: _, _ => stringValue s
  | _, _ => plain s

/-- How deep arrays and inline tables may be nested. -/
def maxDepth : Nat := 80

/-- A value. -/
def value : Parser (List Char) Value := fix (fun _ => Value) valueRule maxDepth

/-! ## Lines -/

/-- What a line says. -/
inductive Line where
  | nothing
  | assignment (path : List String) (v : Value)
  | tableHeader (path : List String)
  | seriesHeader (path : List String)

/-- The key path of a header. -/
def headerPath : Parser (List Char) (List String) := do
  blanks
  let path ← keyPath
  blanks
  pure path

/-- The header of an array of tables, after its opening brackets. -/
def seriesLine : Parser (List Char) Line := do
  let path ← headerPath
  text [']', ']']
  pure (.seriesHeader path)

/-- The header of a table, after its opening bracket. -/
def tableLine : Parser (List Char) Line := do
  let path ← headerPath
  char ']'
  pure (.tableHeader path)

/-- A key with its value. -/
def assignmentLine : Parser (List Char) Line := do
  let path ← keyPath
  blanks
  char '='
  blanks
  pure (.assignment path (← value))

/-- What a line says, up to the space at its end. -/
def statement : Parser (List Char) Line := fun s =>
  match s with
  | [] | '#' :: _ | '\n' :: _ | '\r' :: _ => some (.nothing, s)
  | '[' :: '[' :: rest => seriesLine rest
  | '[' :: rest => tableLine rest
  | _ => assignmentLine s

/-- A whole line. -/
def line : Parser (List Char) Line := do
  blanks
  let said ← statement
  blanks
  let _ ← optional comment
  newline <|> require List.isEmpty
  pure said

/-- The lines of a document. -/
def lines : Parser (List Char) (List Line) := many List.isEmpty line

/-! ## Tables -/

/-- A document read so far: the table that assignments belong to, and the top-level entries. -/
structure Draft where
  current : List String
  entries : Entries

/-- A document with one more line. -/
def Draft.read (d : Draft) : Line → Option Draft
  | .nothing => some d
  | .assignment path v => (within (assign v path) d.current d.entries).map fun es => ⟨d.current, es⟩
  | .tableHeader path =>
    match path.getLast? with
    | some key => (within (openTable key) path.dropLast d.entries).map fun es => ⟨path, es⟩
    | none => none
  | .seriesHeader path =>
    match path.getLast? with
    | some key => (within (openSeries key) path.dropLast d.entries).map fun es => ⟨path, es⟩
    | none => none

/-- The text without the mark that may say how it is encoded. -/
def withoutMark : List Char → List Char
  | '\ufeff' :: rest => rest
  | s => s

/-- The top-level entries of a document. -/
def entriesOf? (source : String) : Option (List (String × Value)) :=
  match lines (withoutMark source.toList) with
  | some (said, _) => (said.foldlM Draft.read ⟨[], []⟩).map fun d => closeAll d.entries
  | none => none

end QueryContract.Settings
