import QueryContract.Text.Digit

/-!
# `Source.FieldNumber` — numbers that stand for the fields of tuples

A field of a tuple is named by a whole number in any of the four bases. Numbers with points between them name a field
of a field, which the lexer cannot tell from a number with a fraction.

* `fieldNumber?` — the number that a literal is;
* `fieldNumbers?` — the numbers that a literal with a point in it is made of.
-/

namespace QueryContract.Source

/-- The base that a literal is written in, and its digits. -/
def based : List Char → Nat × List Char
  | '0' :: 'x' :: digits => (16, digits)
  | '0' :: 'o' :: digits => (8, digits)
  | '0' :: 'b' :: digits => (2, digits)
  | digits => (10, digits)

/-- The number that digits stand for, after the value of those before them; low lines between them do not count. -/
def digitsValue? (base value : Nat) : List Char → Option Nat
  | [] => some value
  | c :: rest =>
    if c = '_' then digitsValue? base value rest
    else
      match Text.hexDigit? c with
      | some digit => if digit < base then digitsValue? base (base * value + digit) rest else none
      | none => none

/-- The number of a field, which has to fit into 32 bits and to be without a suffix. -/
def fieldNumber? (written : String) : Option Nat :=
  let (base, digits) := based written.toList
  if digits.all (· == '_') then none
  else
    match digitsValue? base 0 digits with
    | some n => if n < UInt32.size then some n else none
    | none => none

/-- The numbers that a literal with a point in it is made of, and whether a point is left at its end. -/
def fieldNumbers? (written : String) : Option (List Nat × Bool) :=
  let parts := written.splitOn "."
  if parts.getLast? = some "" then (parts.dropLast.mapM fieldNumber?).map fun numbers => (numbers, true)
  else (parts.mapM fieldNumber?).map fun numbers => (numbers, false)

end QueryContract.Source
