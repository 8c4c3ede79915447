import QueryContract.Source.FieldNumber
import QueryContract.Source.Grammar.Type

/-!
# `Source.Grammar.Pattern` — patterns

* `rangeEnd?` — the ends of a range;
* `patternRule` — the rule of single patterns;
* `alternatives` — patterns separated by vertical bars.
-/

namespace QueryContract.Source

open QueryContract.Parser

/-! ## Pieces -/

/-- A path in an expression or a pattern: as it is written, and whether it is free of arguments and of a type. -/
def valuePath (self : Reader) : Parser Tokens (Bool × Tokens) := do
  if ← look (atSign "<") then
    let (t, leading, base, rest) ← memberPath self true
    pure (false, (TypeExpr.member t leading base rest).tokens)
  else
    let (leading, ss) ← path self true
    pure (ss.all (·.arguments matches .none), (TypeExpr.path leading ss).tokens)

/-- Whether an invocation goes on, after its path. -/
def atInvocation (s : Tokens) : Bool := atSign "!" s && !atSign "!=" s

/-- The number of a field of a tuple, in decimal digits whatever it is written in. -/
def index : Phrase
  | .leaf (.literal written) rest => (fieldNumber? written).map fun n => (.ofLiteral (toString n), rest)
  | _ => none

/-- Whether the number of a field follows. -/
def atIndex (s : Tokens) : Bool := would index s

/-- A field: a name or a number. -/
def field : Phrase := Phrase.first [(atName, Phrase.name), (atIndex, index)]

/-- A block of constants. -/
def constantBlock (self : Reader) : Phrase := Phrase.all [Phrase.word "const", annotatedBlock self]

/-- Two dots, perhaps with an equals sign, and whether an end has to follow. Where `obsolete` allows three dots, they
    stand for two with an equals sign. -/
def rangeSign (obsolete : Bool) : Parser Tokens (Bool × Tokens) := do
  if ← look (atSign "..=") then pure (true, ← Phrase.sign "..=")
  else if ← look (atSign "...") then
    sign "..."
    if obsolete then pure (true, .ofSign "..=") else failure
  else pure (false, ← Phrase.sign "..")

/-- Whether a range in a pattern has no end. -/
def atRangeStop (s : Tokens) : Bool :=
  s.isEmpty || atSign "|" s || atSign "=" s || (atSign ":" s && !atSign "::" s) || atSign "," s || atSign ";" s ||
    atWord "if" s

/-- An end of a range, which may be absent. -/
def rangeEnd? (self : Reader) : Parser Tokens (Option Tokens) := do
  if ← look atRangeStop then pure none
  else if ← look atLiteral then pure (some (← literal))
  else if ← look atPath then pure (some (← valuePath self).2)
  else if ← look (atWord "const") then pure (some (← constantBlock self))
  else failure

/-- A range, after its start. -/
def rangeFrom (self : Reader) (start : Tokens) : Parser Tokens Pattern := do
  let (closed, dots) ← rangeSign true
  match ← rangeEnd? self with
  | some last => pure ⟨.range false, start ++ dots ++ last⟩
  | none => if closed then failure else pure ⟨.range true, start ++ dots⟩

/-- A range without a start, or two dots for what is left out. -/
def rangeTo (self : Reader) : Parser Tokens Pattern := do
  let (closed, dots) ← rangeSign false
  match ← rangeEnd? self with
  | some last => pure ⟨.range true, dots ++ last⟩
  | none => if closed then failure else pure ⟨.other, dots⟩

/-! ## Alternatives -/

/-- Whether another alternative follows. -/
def atAlternative (s : Tokens) : Bool := atSign "|" s && !atSign "||" s && !atSign "|=" s

/-- Patterns with vertical bars between them, and perhaps one before the first. -/
def alternativesOf (single : Parser Tokens Pattern) : Parser Tokens Pattern := do
  let bar ← Phrase.maybeSign "|"
  let (ps, _) ← chained (fun _ => linkWhile atAlternative "|") single
  match bar, ps with
  | .nil, [p] => pure p
  | _, _ => pure ⟨.other, bar ++ .separated (.ofSign "|") false (ps.map Pattern.written)⟩

/-- Patterns with vertical bars between them. -/
def alternatives (self : Reader) : Parser Tokens Pattern := alternativesOf self.pattern

/-- Alternatives as they are written. -/
def alternativesPhrase (self : Reader) : Phrase := do pure (← alternatives self).written

/-! ## Groups -/

/-- A field of a pattern, or the two dots that stand for all others, which have to be the last. -/
def fieldPattern (self : Reader) : Phrase := do
  let front ← annotations self
  if ← look (atSign "..") then
    pure (front ++ (← Phrase.all [Phrase.sign "..", Phrase.provided Tokens.isEmpty]))
  else
    let marks ← Phrase.all [Phrase.maybeWord "box", Phrase.maybeWord "ref", Phrase.maybeWord "mut"]
    let isNumber ← look (!atName ·)
    let f ← if marks.isEmpty then field else Phrase.name
    if ← look (fun s => marks.isEmpty && (isNumber || atSign ":" s)) then
      pure (front ++ f ++ (← Phrase.all [Phrase.sign ":", alternativesPhrase self]))
    else pure (front ++ marks ++ f)

/-- An element of a slice; a range with a missing end needs parentheses. -/
def slicePattern (self : Reader) : Phrase := do
  let p ← alternatives self
  if p.kind = .range true then failure else pure p.written

/-! ## The rule -/

/-- A pattern that starts with a path. -/
def pathPattern (self : Reader) : Parser Tokens Pattern := do
  let (plain, p) ← valuePath self
  if ← look (fun s => plain && atInvocation s) then
    pure ⟨.other, p ++ (← Phrase.all [Phrase.sign "!", anyGroup])⟩
  else if ← look (atGroup .brace) then
    pure ⟨.other, p ++ (← Phrase.enclosed .brace (Phrase.commas (fieldPattern self)))⟩
  else if ← look (atGroup .paren) then
    pure ⟨.other, p ++ (← Phrase.enclosed .paren (Phrase.commas (alternativesPhrase self)))⟩
  else if ← look (atSign "..") then rangeFrom self p
  else pure ⟨.other, p⟩

/-- A pattern that is a name. -/
def namePattern (self : Reader) : Parser Tokens Pattern := do
  let marks ← Phrase.all [Phrase.maybeWord "ref", Phrase.maybeWord "mut"]
  let n ← if ← look (atWord "self") then anyWord else name
  let inner ← Phrase.maybe (atSign "@") (Phrase.all [Phrase.sign "@", do pure (← self.pattern).written])
  pure ⟨.name n, marks ++ .ofWord n ++ inner⟩

/-- A block of constants: whole, and without annotations of its own. -/
def constantBlocks (self : Reader) : Parser Tokens (Tokens × Tokens) := do
  word "const"
  let (inner, statements) ← inside .brace (do pure (← innerAnnotations self, ← self.statements))
  let blockOf (content : Tokens) : Tokens := .ofWord "const" ++ .enclosed .brace content
  pure (blockOf (inner ++ statements), blockOf statements)

/-- A pattern that starts with a literal or a block of constants, which may be the start of a range. -/
def literalPattern (self : Reader) : Parser Tokens Pattern := do
  let start : Pattern ←
    if ← look (atWord "const") then
      let (whole, bare) ← constantBlocks self
      pure ⟨.constant bare, whole⟩
    else pure ⟨.other, ← literal⟩
  if ← look (atSign "..") then rangeFrom self start.written else pure start

/-- Whether a pattern starts with a path and not with a name that it binds. -/
def atPathPattern (s : Tokens) : Bool :=
  (atName s && (atSign "::" s.next || atSign "!" s.next || atGroup .brace s.next || atGroup .paren s.next ||
    atSign ".." s.next)) ||
  (atWord "self" s && atSign "::" s.next) || atSign "::" s || atSign "<" s || atWords ["Self", "super", "crate"] s

/-- The rule of single patterns. -/
def patternRule (self : Reader) : Parser Tokens Pattern := do
  if ← look atPathPattern then pathPattern self
  else if ← look (atWord "_") then pure ⟨.wildcard, ← Phrase.anyWord⟩
  else if ← look (atWord "box") then
    let start ← look id
    word "box"
    let _ ← self.pattern
    pure ⟨.verbatim, ← since start⟩
  else if ← look (fun s => atSign "-" s || atLiteral s || atWord "const" s) then literalPattern self
  else if ← look (fun s => atWords ["ref", "mut", "self"] s || atName s) then namePattern self
  else if ← look (atSign "&") then
    pure ⟨.other, ← Phrase.all [Phrase.sign "&", Phrase.maybeWord "mut", do pure (← self.pattern).written]⟩
  else if ← look (atGroup .paren) then
    pure ⟨.other, ← Phrase.enclosed .paren (Phrase.commas (alternativesPhrase self))⟩
  else if ← look (atGroup .bracket) then
    pure ⟨.other, ← Phrase.enclosed .bracket (Phrase.commas (slicePattern self))⟩
  else if ← look (fun s => atSign ".." s && !atSign "..." s) then rangeTo self
  else failure

end QueryContract.Source
