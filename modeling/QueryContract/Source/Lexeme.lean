import QueryContract.Source.Literal
import QueryContract.Source.Token
import QueryContract.Text.Blank
import QueryContract.Text.Hidden

/-!
# `Source.Lexeme` — from characters to tokens

A source text is cut into lexemes, which are tokens and single brackets; then the brackets are paired. Blanks and
comments separate lexemes and leave no trace, except that a documentation comment counts as an attribute.

* `gap`, `documentation` — the two kinds of comments;
* `lexeme` — the next lexeme;
* `pair` — the groups made of brackets;
* `Tokens.ofText?` — the whole.
-/

namespace QueryContract.Source

/-- A token or a single bracket. -/
inductive Lexeme where
  | token (t : Token)
  | opening (d : Delimiter)
  | closing (d : Delimiter)
deriving DecidableEq

namespace Lexeme

open QueryContract.Parser Text

/-! ## Comments -/

/-- Whether a character separates lexemes: a blank, or a mark of the direction of writing. -/
def isSpace (c : Char) : Bool := isBlank c || c == '\u200e' || c == '\u200f'

/-- The rest of a line, and what follows from its end on. -/
def line : List Char → List Char × List Char
  | [] => ([], [])
  | '\r' :: '\n' :: r => ([], '\n' :: r)
  | c :: r => if c = '\n' then ([], c :: r) else let (l, e) := line r; (c :: l, e)

/-- The rest of a comment in brackets, in which `depth` others are open; its end is taken. -/
def block (depth : Nat) : List Char → Option (List Char × List Char)
  | [] => none
  | '/' :: '*' :: r => (block (depth + 1) r).map fun (l, e) => ('/' :: '*' :: l, e)
  | '*' :: '/' :: r =>
    match depth with
    | 0 => some ([], r)
    | d + 1 => (block d r).map fun (l, e) => ('*' :: '/' :: l, e)
  | c :: r => (block depth r).map fun (l, e) => (c :: l, e)

/-- Whether a comment on one line starts that is no documentation. -/
def atLineComment (s : List Char) : Bool :=
  startsWith ['/', '/'] s && !startsWith ['/', '/', '!'] s &&
    (!startsWith ['/', '/', '/'] s || startsWith ['/', '/', '/', '/'] s)

/-- Whether a comment in brackets starts that is no documentation. -/
def atBlockComment (s : List Char) : Bool :=
  startsWith ['/', '*', '*', '/'] s ||
    (startsWith ['/', '*'] s && !startsWith ['/', '*', '!'] s &&
      (!startsWith ['/', '*', '*'] s || startsWith ['/', '*', '*', '*'] s))

/-- Whether neither space nor a comment follows that separates lexemes. -/
def atLexeme (s : List Char) : Bool :=
  match s with
  | c :: _ => !(isSpace c || atLineComment s || atBlockComment s)
  | [] => true

/-- A single character of space, or a comment. -/
def separator : Parser (List Char) Unit := fun s =>
  if atLineComment s then some ((), (line s).2)
  else if atBlockComment s then (block 0 (s.drop 2)).map fun (_, e) => ((), e)
  else (do let _ ← anyChar : Parser (List Char) Unit) s

/-- What separates two lexemes. -/
def gap : Parser (List Char) Unit := do let _ ← many atLexeme separator

/-! ## Documentation -/

/-- Whether a carriage return stands before something other than a line feed. -/
def hasLoneReturn : List Char → Bool
  | [] => false
  | '\r' :: '\n' :: r => hasLoneReturn r
  | c :: r => c == '\r' || hasLoneReturn r

/-- A character written by its number, in lower-case hexadecimal digits. -/
def numbered (c : Char) : List Char := ['\\', 'u', '\x7b'] ++ Nat.toDigits 16 c.toNat ++ ['\x7d']

/-- The characters that a string literal has for the given text. -/
def escaped : List Char → List Char
  | [] => []
  | c :: r =>
    (if c = '\x00' then
        (if r.head?.any fun d => '0' ≤ d && d ≤ '7' then ['\\', 'x', '0', '0'] else ['\\', '0'])
      else if c = '\t' then ['\\', 't']
      else if c = '\r' then ['\\', 'r']
      else if c = '\n' then ['\\', 'n']
      else if c = '"' then ['\\', '"']
      else if c = '\\' then ['\\', '\\']
      else if isHidden c then numbered c
      else [c]) ++ escaped r

/-- The attribute that a documentation comment stands for; an inner one belongs to what it is inside of. -/
def documenting (inner : Bool) (content : List Char) : List Lexeme :=
  [token (.punct '#' false)] ++ (if inner then [token (.punct '!' false)] else []) ++
    [opening .bracket, token (.word "doc"), token (.punct '=' false),
      token (.literal (String.ofList ('"' :: escaped content ++ ['"']))), closing .bracket]

/-- A documentation comment, on one line or in brackets, inner or outer. -/
def documentation : Parser (List Char) (List Lexeme) := do
  let (inner, content) ←
    (do text ['/', '/', '!']; pure (true, ← fun s => some (line s))) <|>
    (do text ['/', '*', '!']; pure (true, ← block 0)) <|>
    (do text ['/', '/', '/']; pure (false, ← fun s => some (line s))) <|>
    (do text ['/', '*', '*']; pure (false, ← block 0))
  if hasLoneReturn content then failure else pure (documenting inner content)

/-! ## Lexemes -/

/-- The bracket that a character is. -/
def bracket? (c : Char) : Option Lexeme :=
  if c = '(' then some (opening .paren)
  else if c = ')' then some (closing .paren)
  else if c = '[' then some (opening .bracket)
  else if c = ']' then some (closing .bracket)
  else if c = '\x7b' then some (opening .brace)
  else if c = '\x7d' then some (closing .brace)
  else none

/-- The characters that are tokens by themselves. -/
def punctuation : List Char :=
  ['~', '!', '@', '#', '$', '%', '^', '&', '*', '-', '=', '+', '|', ';', ':', ',', '<', '.', '>', '/', '?', '\'']

/-- Whether a punctuation character follows; the start of a comment is none. -/
def atPunctuation (s : List Char) : Bool :=
  match s with
  | c :: _ => punctuation.contains c && !startsWith ['/', '/'] s && !startsWith ['/', '*'] s
  | [] => false

/-- An identifier without the mark of raw ones. -/
def plainWord : Parser (List Char) (List Char) := do
  let first ← satisfy isStart
  let more ← takeWhile isContinue
  pure (first :: more)

/-- The words that no raw identifier may be. -/
def neverRaw : List String := ["_", "super", "self", "Self", "crate"]

/-- A raw identifier, with its mark. -/
def rawWord : Parser (List Char) (List Char) := do
  text ['r', '#']
  let w ← plainWord
  if neverRaw.contains (String.ofList w) then failure else pure ('r' :: '#' :: w)

/-- A keyword or an identifier. -/
def anyWord : Parser (List Char) String := fun s =>
  if startsWith ['r', '#'] s then (String.ofList <$> rawWord) s else (String.ofList <$> plainWord) s

/-- The beginnings of literals that are not finished. -/
def literalStarts : List (List Char) :=
  [['r', '"'], ['r', '#', '"'], ['r', '#', '#'], ['b', '"'], ['b', '\''], ['b', 'r', '"'], ['b', 'r', '#'],
    ['c', '"'], ['c', 'r', '"'], ['c', 'r', '#']]

/-- A word, unless it is the beginning of a literal. -/
def wordToken : Parser (List Char) Token := do
  require fun s => !literalStarts.any (startsWith · s)
  pure (.word (← anyWord))

/-- What stands after the quote of a lifetime: a word, without a quote after it. -/
def lifetimeWord : Parser (List Char) String := do
  let isRaw ← look (startsWith ['r', '#'])
  let w ← anyWord
  require fun s => !(startsWith ['\''] s || (startsWith ['#'] s && !isRaw))
  pure w

/-- A lifetime: a quote and a word. Where the word is the beginning of a literal, the quote is a token of its own. -/
def lifetimeToken : Parser (List Char) Token := do
  char '\''
  if ← look (fun s => would lifetimeWord s && would Literal.scan s) then pure (.punct '\'' true)
  else
    require fun s => !literalStarts.any (startsWith · s)
    pure (.lifetime (← lifetimeWord))

/-- A punctuation character. -/
def punctToken : Parser (List Char) Token := do
  require fun s => atPunctuation s && !startsWith ['\''] s
  let c ← anyChar
  pure (.punct c (← look atPunctuation))

/-- What stands for a literal that is not known. -/
def unknownLiteral : List Char := ['(', '/', '*', 'E', 'R', 'R', 'O', 'R', '*', '/', ')']

/-- The next token that is neither a bracket nor a comment. -/
def plainToken : Parser (List Char) Token :=
  (do pure (.literal (String.ofList (← Literal.scan)))) <|> lifetimeToken <|> punctToken <|> wordToken <|>
  (do text unknownLiteral; pure (.literal (String.ofList unknownLiteral)))

/-- The next lexeme; a documentation comment is several. -/
def lexeme : Parser (List Char) (List Lexeme) := fun s =>
  match s with
  | [] => none
  | c :: r =>
    if c = '/' then (documentation <|> (do pure [token (← plainToken)])) s
    else if startsWith unknownLiteral s then (do pure [token (← plainToken)] : Parser (List Char) (List Lexeme)) s
    else
      match bracket? c with
      | some b => some ([b], r)
      | none => (do pure [token (← plainToken)] : Parser (List Char) (List Lexeme)) s

/-- All lexemes of a text. -/
def all : Parser (List Char) (List Lexeme) := do
  gap
  let parts ← many List.isEmpty (do let l ← lexeme; gap; pure l)
  pure parts.flatten

/-! ## Pairing brackets -/

/-- A sequence of tokens, and the sequences that go on after the groups around it, from the innermost one. -/
abbrev Open := Tokens × List (Delimiter × Tokens)

/-- A lexeme put before a sequence. -/
def before (l : Lexeme) (o : Open) : Option Open :=
  match l, o with
  | token t, (s, outer) => some (.leaf t s, outer)
  | closing d, (s, outer) => some (.nil, (d, s) :: outer)
  | opening d, (s, (d', rest) :: outer) => if d = d' then some (.group d s rest, outer) else none
  | opening _, (_, []) => none

/-- The lexemes put before a sequence, the last one first. -/
def beforeAll (ls : List Lexeme) (o : Open) : Option Open := ls.foldr (fun l r => r.bind (before l)) (some o)

/-- Tokens with their brackets paired; no bracket may be left over. -/
def pair (ls : List Lexeme) : Option Tokens :=
  match beforeAll ls (.nil, []) with
  | some (s, []) => some s
  | _ => none

theorem beforeAll_append (as bs : List Lexeme) (o : Open) :
    beforeAll (as ++ bs) o = (beforeAll bs o).bind (beforeAll as) := by
  induction as with
  | nil =>
    have step : beforeAll [] = some := rfl
    rw [List.nil_append, step]
    simp
  | cons a as ih =>
    have step : ∀ ls, beforeAll (a :: ls) o = (beforeAll ls o).bind (before a) := fun _ => rfl
    rw [List.cons_append, step, ih]
    cases beforeAll bs o <;> rfl

end Lexeme

/-- The tokens of a text; a mark of the byte order at its start is no part of it. -/
def Tokens.ofText? (s : List Char) : Option Tokens := do
  let (ls, _) ← Lexeme.all (match s with
    | '\ufeff' :: r => r
    | _ => s)
  Lexeme.pair ls

end QueryContract.Source
