import QueryContract.Parser
import QueryContract.Text.Digit
import QueryContract.Text.Identifier

/-!
# `Source.Literal` — the literals of Rust source

Where a literal ends. What it denotes plays no part, but a literal that denotes nothing is refused: an unknown escape,
a digit outside the base, an unfinished string.

* `string`, `byte`, `character` — the quoted literals, with and without escapes;
* `decimal`, `integer` — numbers with and without a point or an exponent;
* `numeral`, `quoted` — the two kinds, each with its suffix.
-/

namespace QueryContract.Source.Literal

open QueryContract.Parser Text

/-! ## Escapes -/

/-- The three kinds of strings. -/
inductive Flavour where
  /-- Any characters. -/
  | plain
  /-- ASCII only. -/
  | bytes
  /-- Any characters but the null character. -/
  | terminated
deriving DecidableEq

/-- A hexadecimal digit. -/
def hexDigit : Parser (List Char) Nat := do
  match hexDigit? (← anyChar) with
  | some digit => pure digit
  | none => failure

/-- Two hexadecimal digits: below 128 in plain text, not zero in a terminated string. -/
def twoDigits (flavour : Flavour) : Parser (List Char) Unit := do
  let high ← hexDigit
  let low ← hexDigit
  match flavour with
  | .plain => if high < 8 then pure () else failure
  | .bytes => pure ()
  | .terminated => if high = 0 ∧ low = 0 then failure else pure ()

/-- The rest of a code point in braces, after `count` digits of the given value; the closing brace is taken. Low lines
    may stand after the first digit. -/
def codePoint (value count : Nat) : List Char → Option (Nat × List Char)
  | [] => none
  | c :: r =>
    if c = '\x7d' then (if count = 0 then none else some (value, r))
    else if c = '_' then (if count = 0 then none else codePoint value count r)
    else
      match hexDigit? c with
      | some digit => if count = 6 then none else codePoint (16 * value + digit) (count + 1) r
      | none => none

/-- A code point in braces; it has to be that of a character. -/
def braced (flavour : Flavour) : Parser (List Char) Unit := do
  char '\x7b'
  let n ← codePoint 0 0
  if n.isValidChar && !(flavour == .terminated && n == 0) then pure () else failure

/-- The blanks after a backslash at the end of a line, up to the first other character, which has to exist. -/
def afterLineEnd : List Char → Option (Unit × List Char)
  | [] => none
  | '\r' :: '\n' :: r => afterLineEnd r
  | '\r' :: _ => none
  | c :: r => if c = ' ' ∨ c = '\t' ∨ c = '\n' then afterLineEnd r else some ((), c :: r)

/-- The escape of one character, after its backslash. -/
def escape (flavour : Flavour) : Parser (List Char) Unit := do
  let c ← anyChar
  if c = 'x' then twoDigits flavour
  else if c = 'u' then (if flavour = .bytes then failure else braced flavour)
  else if c = '0' then (if flavour = .terminated then failure else pure ())
  else if ['n', 'r', 't', '\\', '\'', '"'].contains c then pure ()
  else failure

/-! ## Strings -/

/-- Whether a character may stand in a string as it is. -/
def Flavour.admits : Flavour → Char → Bool
  | plain, _ => true
  | bytes, c => c.toNat < 0x80
  | terminated, c => c != '\x00'

/-- A character of a raw string; a carriage return only before a line feed. -/
def rawItem (flavour : Flavour) : Parser (List Char) Unit := do
  let c ← satisfy flavour.admits
  if c = '\r' then char '\n' else pure ()

/-- A character or an escape of a string. -/
def item (flavour : Flavour) : Parser (List Char) Unit :=
  (do
    char '\\'
    if ← look (fun s => startsWith ['\n'] s || startsWith ['\r'] s) then afterLineEnd else escape flavour) <|>
  (do require (!startsWith ['\\'] ·); rawItem flavour)

/-- The rest of a string with escapes, after its opening quote. -/
def cooked (flavour : Flavour) : Parser (List Char) Unit := do
  let _ ← many (startsWith ['"']) (item flavour)
  char '"'

/-- The rest of a raw string, from its number signs on; there may be at most 255 of them. -/
def raw (flavour : Flavour) : Parser (List Char) Unit := do
  let signs ← takeWhile (· == '#')
  char '"'
  if 255 < signs.length then failure
  let close := '"' :: signs
  let _ ← many (startsWith close) (rawItem flavour)
  text close

/-- A string of any flavour. -/
def string : Parser (List Char) Unit :=
  (do char '"'; cooked .plain) <|> (do char 'r'; raw .plain) <|>
  (do text ['b', '"']; cooked .bytes) <|> (do text ['b', 'r']; raw .bytes) <|>
  (do text ['c', '"']; cooked .terminated) <|> (do text ['c', 'r']; raw .terminated)

/-- One character or its escape, and the closing quote. -/
def single (flavour : Flavour) : Parser (List Char) Unit := do
  (do char '\\'; escape flavour) <|>
    (do require (!startsWith ['\\'] ·); let _ ← satisfy flavour.admits)
  char '\''

/-- A byte. -/
def byte : Parser (List Char) Unit := do text ['b', '\'']; single .bytes

/-- A character. -/
def character : Parser (List Char) Unit := do char '\''; single .plain

/-! ## Numbers -/

/-- Whether a character is a decimal digit or the low line. -/
def isDigitOrLine (c : Char) : Bool := c.isDigit || c == '_'

/-- The rest after an exponent, of which `signed` and `valued` say whether a sign and a digit have been seen; without a
    digit, or with a second sign, the number ends as `before` says. -/
def exponent (before : Option (List Char)) (signed valued : Bool) : List Char → Option (List Char)
  | [] => if valued then some [] else before
  | c :: r =>
    if c = '+' ∨ c = '-' then
      if valued then some (c :: r) else if signed then before else exponent before true valued r
    else if c.isDigit then exponent before signed true r
    else if c = '_' then exponent before signed valued r
    else if valued then some (c :: r) else before

/-- The rest after a number with a point or an exponent. A point is part of the number unless another point or an
    identifier follows it. -/
def decimal (s : List Char) : Option (List Char) :=
  match s with
  | [] => none
  | first :: _ =>
    if !first.isDigit then none
    else
      match s.dropWhile isDigitOrLine with
      | '.' :: r =>
        match r with
        | c :: _ => if c = '.' || isStart c then none else afterPoint r
        | [] => afterPoint r
      | c :: r => if c = 'e' || c = 'E' then exponent none false false r else none
      | [] => none
where
  /-- The rest after the digits behind the point, and after an exponent if there is a whole one. -/
  afterPoint (r : List Char) : Option (List Char) :=
    match r.dropWhile isDigitOrLine with
    | c :: e => if c = 'e' || c = 'E' then exponent (some (c :: e)) false false e else some (c :: e)
    | [] => some []

/-- The rest after the digits of a whole number in the given base; `empty` says that none has been seen. A letter that
    is no digit of the base ends the number, a decimal digit that is none is refused. -/
def digits (base : Nat) (empty : Bool) : List Char → Option (List Char)
  | [] => if empty then none else some []
  | c :: r =>
    if c = '_' then (if empty ∧ base = 10 then none else digits base empty r)
    else
      match hexDigit? c with
      | some digit =>
        if digit < base then digits base false r
        else if c.isDigit then none
        else if empty then none else some (c :: r)
      | none => if empty then none else some (c :: r)

/-- The rest after a whole number. -/
def integer (s : List Char) : Option (List Char) :=
  match s with
  | '0' :: 'x' :: r => digits 16 true r
  | '0' :: 'o' :: r => digits 8 true r
  | '0' :: 'b' :: r => digits 2 true r
  | _ => digits 10 true s

/-! ## Suffixes -/

/-- The rest after an identifier, if there is one. -/
def afterSuffix (s : List Char) : List Char :=
  match s with
  | c :: _ => if isStart c then s.dropWhile isContinue else s
  | [] => s

/-- The rest after a number and its suffix, which nothing of an identifier may follow. -/
def ended (rest : List Char) : Option (Unit × List Char) :=
  let rest := afterSuffix rest
  match rest with
  | c :: _ => if isContinue c then none else some ((), rest)
  | [] => some ((), rest)

/-- A number with its suffix. -/
def numeral : Parser (List Char) Unit := fun s =>
  ((decimal s).bind ended) <|> ((integer s).bind ended)

/-- A quoted literal with its suffix. -/
def quoted : Parser (List Char) Unit := do
  string <|> byte <|> character
  fun s => some ((), afterSuffix s)

/-- The next literal, as it is written. -/
def scan : Parser (List Char) (List Char) := fun s =>
  match (quoted <|> numeral) s with
  | some ((), rest) => some (s.take (s.length - rest.length), rest)
  | none => none

end QueryContract.Source.Literal
