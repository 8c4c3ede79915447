import QueryContract.Parser
import QueryContract.Settings.Value
import QueryContract.Text.Digit

/-!
# `Settings.Scalar` — keys and scalars of a settings document

The characters of a TOML document, one scalar at a time.

* `blanks`, `lineEnd`, `gap` — what stands between values;
* `quoted` — the four kinds of strings, with their escapes;
* `plain`  — booleans, numbers and moments, which are told apart by their form;
* `keyPath` — a dotted key.
-/

namespace QueryContract.Settings

open QueryContract.Parser

/-! ## Space -/

/-- Spaces and tabs. -/
def isSpace (c : Char) : Bool := c == ' ' || c == '\t'

/-- What may stand in a comment or a literal string: a tab and all but control characters. -/
def isPrintable (c : Char) : Bool := c == '\t' || (0x20 ≤ c.toNat && c.toNat != 0x7f)

/-- Any number of spaces and tabs. -/
def blanks : Parser (List Char) Unit := do let _ ← takeWhile isSpace

/-- The end of a line. -/
def newline : Parser (List Char) Unit := char '\n' <|> text ['\r', '\n']

/-- A comment up to the end of its line. -/
def comment : Parser (List Char) Unit := do
  char '#'
  let _ ← takeWhile isPrintable

/-- Whether neither blank, nor comment, nor line end follows. -/
def atToken (s : List Char) : Bool :=
  match s with
  | c :: _ => !(isSpace c || c == '#' || c == '\n' || c == '\r')
  | [] => true

/-- Blanks, comments and line ends, where a value may go on over several lines. -/
def gap : Parser (List Char) Unit := do
  let _ ← many atToken (newline <|> comment <|> (do let _ ← satisfy isSpace; pure ()))

/-! ## Strings -/

/-- A number of hexadecimal digits, after the value of those before them. -/
def hexDigits : Nat → Nat → Parser (List Char) Nat
  | 0, value => pure value
  | count + 1, value => do
    match Text.hexDigit? (← anyChar) with
    | some digit => hexDigits count (16 * value + digit)
    | none => failure

/-- The character of a code point. -/
def scalar (count : Nat) : Parser (List Char) (List Char) := do
  let n ← hexDigits count 0
  if n.isValidChar then pure [Char.ofNat n] else failure

/-- An escape, after its backslash. -/
def escape : Parser (List Char) (List Char) := do
  match ← anyChar with
  | 'b' => pure ['\x08']
  | 't' => pure ['\t']
  | 'n' => pure ['\n']
  | 'f' => pure ['\x0c']
  | 'r' => pure ['\r']
  | 'e' => pure ['\x1b']
  | '"' => pure ['"']
  | '\\' => pure ['\\']
  | 'x' => scalar 2
  | 'u' => scalar 4
  | 'U' => scalar 8
  | _ => failure

/-- A line end inside a string, which stands for itself. -/
def innerNewline : Parser (List Char) (List Char) :=
  (do char '\n'; pure ['\n']) <|> (do text ['\r', '\n']; pure ['\r', '\n'])

/-- A character that stands for itself. -/
def plainChar : Parser (List Char) (List Char) := do pure [← satisfy isPrintable]

/-- A backslash at the end of a line: it and all space up to the next other character count as nothing. -/
def continuation : Parser (List Char) (List Char) := do
  blanks
  newline
  let _ ← many (fun s => match s with
    | c :: _ => !(isSpace c || c == '\n' || c == '\r')
    | [] => true) (newline <|> (do let _ ← satisfy isSpace; pure ()))
  pure []

/-- The end of a string of several lines: three quotes, before which up to two more belong to the string. -/
def closing (quote : Char) : Parser (List Char) (List Char) :=
  (do text [quote, quote, quote, quote, quote]; pure [quote, quote]) <|>
  (do text [quote, quote, quote, quote]; pure [quote]) <|>
  (do text [quote, quote, quote]; pure [])

/-- A string of several lines, after its opening quotes. -/
def longString (quote : Char) (item : Parser (List Char) (List Char)) : Parser (List Char) String := do
  let _ ← optional newline
  let items ← many (startsWith [quote, quote, quote]) item
  let rest ← closing quote
  pure (String.ofList (items.flatten ++ rest))

/-- A string on one line, after its opening quote. -/
def shortString (quote : Char) (item : Parser (List Char) (List Char)) : Parser (List Char) String := do
  let items ← many (startsWith [quote]) item
  char quote
  pure (String.ofList items.flatten)

/-- A string on one line: with escapes between double quotes, as it stands between single quotes. -/
def quotedLine : Parser (List Char) String :=
  (do char '"'; shortString '"' ((do char '\\'; escape) <|> (do require (!startsWith ['\\'] ·); plainChar))) <|>
  (do char '\''; shortString '\'' plainChar)

/-- A string of several lines: with escapes between triple double quotes, as it stands between triple single ones. -/
def quotedBlock : Parser (List Char) String :=
  (do
    text ['"', '"', '"']
    longString '"' ((do char '\\'; continuation <|> escape) <|> innerNewline <|>
      (do require (!startsWith ['\\'] ·); plainChar))) <|>
  (do text ['\'', '\'', '\'']; longString '\'' (innerNewline <|> plainChar))

/-- A string. -/
def quoted : Parser (List Char) String := fun s =>
  if startsWith ['"', '"', '"'] s || startsWith ['\'', '\'', '\''] s then quotedBlock s else quotedLine s

/-! ## Keys -/

/-- What a key without quotes is made of. -/
def isKeyChar (c : Char) : Bool := c.isAlphanum || c == '_' || c == '-'

/-- A single key. -/
def simpleKey : Parser (List Char) String :=
  (do pure (String.ofList (← takeWhile1 isKeyChar))) <|> quotedLine

/-- What follows a part of a dotted key. -/
def dot : Parser (List Char) Link := do
  match ← optional (do blanks; char '.'; blanks) with
  | some () => pure .again
  | none => pure .done

/-- The parts of a dotted key. -/
def keyPath : Parser (List Char) (List String) := do
  let (parts, _) ← chained (fun _ => dot) simpleKey
  pure parts

/-! ## Numbers and moments -/

/-- Digits of the given kind in groups, an underscore between any two groups. -/
def isGrouped (isDigit : Char → Bool) : List Char → Bool
  | [] => false
  | [c] => isDigit c
  | c :: '_' :: rest => isDigit c && isGrouped isDigit rest
  | c :: rest => isDigit c && isGrouped isDigit rest

/-- The text without a sign in front. -/
def unsigned : List Char → List Char
  | '+' :: rest => rest
  | '-' :: rest => rest
  | s => s

/-- Decimal digits that do not start with a superfluous zero. -/
def isWhole (s : List Char) : Bool :=
  isGrouped Char.isDigit s && (s.head? != some '0' || s.length == 1)

/-- Digits after the mark of their base, or none at all. -/
def isBased (isDigit : Char → Bool) (s : List Char) : Bool := s.isEmpty || isGrouped isDigit s

/-- Whether the text is a whole number. -/
def isInteger : List Char → Bool
  | '0' :: 'x' :: s => isBased (fun c => (Text.hexDigit? c).isSome) s
  | '0' :: 'o' :: s => isBased (fun c => '0' ≤ c && c ≤ '7') s
  | '0' :: 'b' :: s => isBased (fun c => c == '0' || c == '1') s
  | s => isWhole (unsigned s)

/-- The text before the first character with the property, and what follows that character. -/
def cut (p : Char → Bool) (s : List Char) : List Char × Option (List Char) :=
  match s.dropWhile (!p ·) with
  | [] => (s, none)
  | _ :: rest => (s.takeWhile (!p ·), some rest)

/-- Whether the text is a number with a fraction or an exponent, or one of the two special ones. -/
def isFractional (s : List Char) : Bool :=
  let s := unsigned s
  if s == ['i', 'n', 'f'] || s == ['n', 'a', 'n'] then true
  else
    let (mantissa, exponent) := cut (fun c => c == 'e' || c == 'E') s
    let (whole, fraction) := cut (· == '.') mantissa
    (exponent.isSome || fraction.isSome) && isWhole whole && fraction.all (isGrouped Char.isDigit) &&
      exponent.all fun e => isGrouped Char.isDigit (unsigned e)

/-- The value of two decimal digits. -/
def twoDigits? (a b : Char) : Option Nat :=
  if a.isDigit && b.isDigit then some (10 * (a.toNat - 0x30) + (b.toNat - 0x30)) else none

/-- Whether two digits lie between two bounds. -/
def twoDigitsIn (low high : Nat) (a b : Char) : Bool :=
  (twoDigits? a b).any fun n => low ≤ n && n ≤ high

/-- Whether the text is a difference to universal time, or nothing. -/
def isOffset : List Char → Bool
  | [] | ['Z'] | ['z'] => true
  | [sign, a, b, ':', c, d] => (sign == '+' || sign == '-') && twoDigitsIn 0 23 a b && twoDigitsIn 0 59 c d
  | _ => false

/-- Whether the text goes on after the seconds of a time: a fraction, then an offset where one is allowed. -/
def isAfterSeconds (offset : Bool) : List Char → Bool
  | '.' :: rest =>
    let tail := rest.dropWhile Char.isDigit
    rest.head?.any Char.isDigit && (if offset then isOffset tail else tail.isEmpty)
  | s => if offset then isOffset s else s.isEmpty

/-- Whether the text is a time of day, with an offset where one is allowed. -/
def isTime (offset : Bool) : List Char → Bool
  | a :: b :: ':' :: c :: d :: ':' :: e :: f :: rest =>
    twoDigitsIn 0 23 a b && twoDigitsIn 0 59 c d && twoDigitsIn 0 60 e f && isAfterSeconds offset rest
  | a :: b :: ':' :: c :: d :: rest =>
    twoDigitsIn 0 23 a b && twoDigitsIn 0 59 c d && (if offset then isOffset rest else rest.isEmpty)
  | _ => false

/-- Whether a year has a 29th of February. -/
def isLeap (year : Nat) : Bool := year % 4 == 0 && (year % 100 != 0 || year % 400 == 0)

/-- The number of days of a month. -/
def daysIn (year month : Nat) : Nat :=
  if month = 2 then (if isLeap year then 29 else 28) else if [4, 6, 9, 11].contains month then 30 else 31

/-- Whether digits are a day that exists. -/
def isDay (y1 y2 y3 y4 m1 m2 d1 d2 : Char) : Bool :=
  match twoDigits? y1 y2, twoDigits? y3 y4, twoDigits? m1 m2 with
  | some century, some year, some month =>
    1 ≤ month && month ≤ 12 && twoDigitsIn 1 (daysIn (100 * century + year) month) d1 d2
  | _, _, _ => false

/-- Whether the text is a date, a time, or both. -/
def isMoment : List Char → Bool
  | y1 :: y2 :: y3 :: y4 :: '-' :: m1 :: m2 :: '-' :: d1 :: d2 :: rest =>
    isDay y1 y2 y3 y4 m1 m2 d1 d2 &&
      match rest with
      | [] => true
      | mark :: time => (mark == 'T' || mark == 't' || mark == ' ') && isTime true time
  | s => isTime false s

/-- What plain scalars are made of. -/
def isPlainChar (c : Char) : Bool := isKeyChar c || c == '+' || c == '.' || c == ':'

/-- The text of a plain scalar; a single space may stand between a date and a time. -/
def plainText : Parser (List Char) (List Char) := do
  let front ← takeWhile1 isPlainChar
  let rest ← look id
  match rest with
  | ' ' :: c :: _ =>
    if front.length == 10 && isMoment front && c.isDigit then
      let _ ← char ' '
      let time ← takeWhile1 isPlainChar
      pure (front ++ ' ' :: time)
    else pure front
  | _ => pure front

/-- A boolean, a number or a moment. -/
def plain : Parser (List Char) Value := do
  let s ← plainText
  if s == ['t', 'r', 'u', 'e'] then pure (.boolean true)
  else if s == ['f', 'a', 'l', 's', 'e'] then pure (.boolean false)
  else if isInteger s || isFractional s then pure (.number (String.ofList s))
  else if isMoment s then pure (.moment (String.ofList s))
  else failure

end QueryContract.Settings
