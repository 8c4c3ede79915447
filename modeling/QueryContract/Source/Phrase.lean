import QueryContract.Source.Token

/-!
# `Source.Phrase` — parts of a source text kept as they are written

A phrase is a parser whose result is what it takes, written token by token: every operator as one, whatever stood
around it. Phrases are put together like the right-hand sides of a grammar.
-/

namespace QueryContract.Source

/-- A parser that gives back what it takes, in its written form. -/
abbrev Phrase := Parser Tokens Tokens

namespace Phrase

/-! ## Tokens -/

/-- Takes nothing. -/
def nothing : Phrase := pure .nil

/-- A keyword. -/
def word (w : String) : Phrase := do
  Source.word w
  pure (.ofWord w)

/-- An operator. -/
def sign (s : String) : Phrase := do
  Source.sign s
  pure (.ofSign s)

/-- An identifier. -/
def name : Phrase := do pure (.ofWord (← Source.name))

/-- A keyword or an identifier. -/
def anyWord : Phrase := do pure (.ofWord (← Source.anyWord))

/-- A lifetime. -/
def lifetime : Phrase := do pure (.ofLifetime (← Source.lifetime))

/-- A group whose content is of the given form. -/
def enclosed (d : Delimiter) (content : Phrase) : Phrase := do
  pure (.enclosed d (← inside d content))

/-! ## Sequence and choice -/

/-- Phrases one after the other. -/
def all : List Phrase → Phrase
  | [] => nothing
  | p :: ps => do
    let front ← p
    let back ← all ps
    pure (front ++ back)

/-- The phrase if the test holds, else nothing. -/
def maybe (test : Tokens → Bool) (p : Phrase) : Phrase := fun s => if test s then p s else some (.nil, s)

/-- The parser of the first test that holds; fails if none does. -/
def first {α : Type} : List ((Tokens → Bool) × Parser Tokens α) → Parser Tokens α
  | [] => failure
  | (test, p) :: rest => fun s => if test s then p s else first rest s

/-- A keyword that may be absent. -/
def maybeWord (w : String) : Phrase := maybe (atWord w) (word w)

/-- An operator that may be absent. -/
def maybeSign (s : String) : Phrase := maybe (atSign s) (sign s)

/-- Phrases up to where `stop` holds. -/
def several (stop : Tokens → Bool) (item : Phrase) : Phrase := do
  pure (.concat (← Parser.many stop item))

/-- Phrases up to where `stop` holds, with a separator between any two and perhaps after the last. -/
def listed (stop : Tokens → Bool) (separator : String) (item : Phrase) : Phrase := do
  let (items, trailing) ← Parser.separated stop (Source.sign separator) item
  pure (.separated (.ofSign separator) trailing items)

/-- Phrases with a separator between any two, none at all where `stop` holds at the start; after a separator the last
    one may be absent where `stop` holds, and without a separator the row ends. -/
def row (stop : Tokens → Bool) (separator : String) (item : Phrase) : Phrase :=
  maybe (!stop ·) do
    let (items, trailing) ← Parser.chained
      (fun _ => do
        if ← Parser.look (atSign separator) then
          Source.sign separator
          if ← Parser.look stop then pure .trailing else pure .again
        else pure .done) item
    pure (.separated (.ofSign separator) trailing items)

/-- Phrases up to the end, with commas. -/
def commas (item : Phrase) : Phrase := listed Tokens.isEmpty "," item

/-- Nothing, provided that the test holds. -/
def provided (test : Tokens → Bool) : Phrase := do
  Parser.require test
  nothing

/-! ## Running -/

section

variable {α : Type} {test : Tokens → Bool} {s : Tokens}

theorem maybe_some {p : Phrase} (h : test s = true) : maybe test p s = p s := by
  rw [maybe, h, if_pos rfl]

theorem maybe_none {p : Phrase} (h : test s = false) : maybe test p s = some (.nil, s) := by
  rw [maybe, h, if_neg (by decide)]

theorem maybe_cases {p : Phrase} {front r : Tokens} (h : maybe test p s = some (front, r)) : test s = true ∨ r = s := by
  cases htest : test s with
  | true => exact .inl rfl
  | false =>
    rw [maybe_none htest] at h
    cases h
    exact .inr rfl

theorem first_then {p : Parser Tokens α} {more : List ((Tokens → Bool) × Parser Tokens α)} (h : test s = true) :
    first ((test, p) :: more) s = p s := by
  show (if test s then p s else first more s) = _
  rw [h, if_pos rfl]

theorem first_else {p : Parser Tokens α} {more : List ((Tokens → Bool) × Parser Tokens α)} (h : test s = false) :
    first ((test, p) :: more) s = first more s := by
  show (if test s then p s else first more s) = _
  rw [h, if_neg (by decide)]

theorem all_cons {p : Phrase} {ps : List Phrase} {front r : Tokens} (h : p s = some (front, r)) :
    all (p :: ps) s = (all ps r).map fun y => (front ++ y.1, y.2) := by
  rw [all, Parser.bind_of_eq h, Parser.bind_apply]
  cases all ps r <;> rfl

/-- A phrase that takes nothing can be left out before others. -/
theorem all_cons_none {p : Phrase} {ps : List Phrase} (h : p s = some (.nil, s)) : all (p :: ps) s = all ps s := by
  rw [all_cons h]
  cases all ps s <;> rfl

end

end Phrase

/-- What the parser takes, as it stands in the source. -/
def taken {α : Type} (p : Parser Tokens α) : Phrase := do
  let start ← Parser.look id
  let _ ← p
  since start

end QueryContract.Source
