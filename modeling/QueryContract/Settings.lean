import QueryContract.Analyzer
import QueryContract.Settings.Document

/-!
# `Settings` — a vocabulary from a settings document

A settings document may say three things: whether to start from the built-in vocabulary, which further wrappers there
are, and which further subtypes. Anything else in it is refused.

* `Settings.ofEntries?` — the settings in the values of a document;
* `Settings.ofText?`    — the settings in a document;
* `Settings.vocabulary` — the vocabulary that they describe.
-/

namespace QueryContract

/-- Additions to a vocabulary. -/
structure Settings where
  /-- Whether the built-in vocabulary is there too. -/
  includeDefaults : Bool := true
  /-- Further wrappers, in the order of the document. -/
  wrappers : List (String × Wrapper) := []
  /-- Further supertypes by subtype, in ascending order of the subtypes. -/
  subtypes : List (String × List String) := []
deriving DecidableEq

namespace Settings

/-! ## Schema -/

/-- Whether every key is one of the known ones. -/
def onlyKeys (known : List String) (entries : List (String × Value)) : Bool :=
  entries.all fun entry => known.contains entry.1

/-- A string. -/
def string? : Value → Option String
  | .string s => some s
  | _ => none

/-- A boolean. -/
def boolean? : Value → Option Bool
  | .boolean b => some b
  | _ => none

/-- Whether a value holds nothing. -/
def isEmptyValue : Value → Bool
  | .array [] | .table [] => true
  | _ => false

/-- A kind of delivery: its name, or a table with its name as the only key and nothing below it. -/
def delivery? : Value → Option Delivery
  | .string name => Delivery.ofText? name
  | .table [(name, content)] => if isEmptyValue content then Delivery.ofText? name else none
  | _ => none

/-- A wrapper with its name, from the three values that describe it. -/
def wrapperOf? (name kind single : Value) : Option (String × Wrapper) := do
  pure (← string? name, ⟨← delivery? kind, ← boolean? single⟩)

/-- A wrapper: a table with exactly the three keys, or an array that starts with the three values. -/
def wrapper? : Value → Option (String × Wrapper)
  | .table entries =>
    if onlyKeys ["name", "kind", "single_valued"] entries then do
      wrapperOf? (← entries.lookup "name") (← entries.lookup "kind") (← entries.lookup "single_valued")
    else none
  | .array (name :: kind :: single :: _) => wrapperOf? name kind single
  | _ => none

/-- An array of wrappers. -/
def wrappers? : Value → Option (List (String × Wrapper))
  | .array items => items.mapM wrapper?
  | _ => none

/-- An array of strings. -/
def strings? : Value → Option (List String)
  | .array items => items.mapM string?
  | _ => none

/-- An entry put into entries that ascend by key. -/
def insertEntry {α : Type} (entry : String × α) : List (String × α) → List (String × α)
  | [] => [entry]
  | other :: rest => if entry.1 < other.1 then entry :: other :: rest else other :: insertEntry entry rest

/-- A table of arrays of strings, in ascending order of its keys. -/
def subtypes? : Value → Option (List (String × List String))
  | .table entries => do
    let declared ← entries.mapM fun entry => (strings? entry.2).map fun sups => (entry.1, sups)
    pure (declared.foldr insertEntry [])
  | _ => none

/-- What an entry says if it is there, else the given value. -/
def entryOr {α : Type} (absent : α) (read : Value → Option α) (key : String)
    (entries : List (String × Value)) : Option α :=
  match entries.lookup key with
  | none => some absent
  | some v => read v

/-- The settings in the top-level entries of a document. -/
def ofEntries? (entries : List (String × Value)) : Option Settings :=
  if onlyKeys ["include_defaults", "wrappers", "subtypes"] entries then do
    pure {
      includeDefaults := ← entryOr true boolean? "include_defaults" entries
      wrappers := ← entryOr [] wrappers? "wrappers" entries
      subtypes := ← entryOr [] subtypes? "subtypes" entries }
  else none

/-- The settings in a document. -/
def ofText? (source : String) : Option Settings := (entriesOf? source).bind ofEntries?

/-! ## Vocabulary -/

/-- The wrappers of the settings. -/
def wrapperTable (s : Settings) : WrapperTable :=
  s.wrappers.foldl (fun t entry => t.register entry.1 entry.2)
    (if s.includeDefaults then .builtin else .empty)

/-- The subtypes of the settings. -/
def hierarchy (s : Settings) : Hierarchy :=
  s.subtypes.foldl (fun h entry => h.declareAll entry.1 entry.2)
    (if s.includeDefaults then .builtin else .empty)

/-- The vocabulary that the settings describe. -/
def vocabulary (s : Settings) : Vocabulary := ⟨s.wrapperTable, s.hierarchy⟩

end Settings

/-- An analyzer under construction, with the vocabulary of the settings. -/
def Blueprint.withSettings (b : Blueprint) (s : Settings) : Blueprint := b.withVocabulary s.vocabulary

end QueryContract
