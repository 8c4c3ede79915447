import QueryContract.Source.Declaration
import QueryContract.Source.Grammar.Expression

/-!
# `Source.Grammar.Declaration` — methods and traits

A declaration is read for what it declares, and also kept as it is written, because it may stand in a body.

* `signature` — a function up to its body, and `methodDeclaration` — a method of a trait;
* `typeItem` — a type with its bounds and its definition;
* `traitItem`, `traitAfter`, `traitDeclaration` — a trait with its items.
-/

namespace QueryContract.Source

open QueryContract.Parser

/-! ## Parameters -/

/-- A receiver; a double colon after it would make it a path. -/
def receiver (self : Reader) : Phrase :=
  Phrase.first
    [(atSign "&", Phrase.all
        [Phrase.sign "&", Phrase.maybe atLifetime Phrase.lifetime, Phrase.maybeWord "mut", Phrase.word "self",
          Phrase.provided (!atSign "::" ·)]),
      (fun _ => true, Phrase.all
        [Phrase.maybeWord "mut", Phrase.word "self", Phrase.provided (!atSign "::" ·),
          Phrase.maybe (atSign ":") (Phrase.all [Phrase.sign ":", self.typePhrase true])])]

/-- The dots after which no parameter may stand. -/
def lastDots : Phrase :=
  Phrase.all [Phrase.sign "...", Phrase.provided fun s => s.isEmpty || (atSign "," s && s.next.isEmpty)]

/-- The name of a parameter that has the given pattern. -/
def ParameterName.ofPattern (p : Pattern) : ParameterName :=
  match p.kind with
  | .name n => .name n
  | .wildcard => .unnamed
  | _ => .pattern

/-- A parameter other than the receiver, or the dots. A generic type may stand without a name. -/
def typedParameter (self : Reader) : Parser Tokens (Option ParameterExpr × Tokens) := do
  if ← look (atSign "...") then pure (none, ← lastDots)
  else if ← look (fun s => atName s && atSign "<" s.next) then
    let t ← self.type true
    pure (some ⟨.unnamed, t⟩, .ofWord "_" ++ .ofSign ":" ++ t.tokens)
  else
    let p ← self.pattern
    sign ":"
    let front := p.written ++ .ofSign ":"
    if ← look (atSign "...") then pure (none, front ++ (← lastDots))
    else
      let t ← self.type true
      pure (some ⟨.ofPattern p, t⟩, front ++ t.tokens)

/-- A parameter; only the first may be the receiver, which declares nothing. -/
def functionParameter (self : Reader) (first : Bool) : Parser Tokens (Option ParameterExpr × Tokens) := do
  let front ← annotations self
  if ← look (would (receiver self)) then
    if first then pure (none, front ++ (← receiver self)) else failure
  else
    let (p, written) ← typedParameter self
    pure (p, front ++ written)

/-- The parameters of a function, without the receiver, and how all of them are written. -/
def functionParameters (self : Reader) : Parser Tokens (List ParameterExpr × Tokens) := do
  if ← look Tokens.isEmpty then pure ([], .nil)
  else
    let first ← functionParameter self true
    let (more, trailing) ←
      if ← look Tokens.isEmpty then pure ([], false)
      else
        sign ","
        let (more, trailing) ← separated Tokens.isEmpty (sign ",") (functionParameter self false)
        pure (more, trailing || more.isEmpty)
    let ps := first :: more
    pure (ps.filterMap (·.1), .separated (.ofSign ",") trailing (ps.map (·.2)))

/-! ## Functions -/

/-- A function up to its body, and how it is written. -/
def signature (self : Reader) : Parser Tokens (Signature × Tokens) := do
  let constant ← Phrase.maybeWord "const"
  let async ← Phrase.maybeWord "async"
  let safety ← Phrase.maybeWord "unsafe"
  let abi ← convention
  word "fn"
  let n ← name
  let gs ← generics self
  let (ps, parameters) ← inside .paren (functionParameters self)
  let result ← result? self true
  let clause ← conditions self
  pure (⟨n, !async.isEmpty, ps, result⟩,
    .concat [constant, async, safety, abi, .ofWord "fn", .ofWord n, gs.written, .enclosed .paren parameters,
      resultTokens result, clause])

/-- A function up to its body, as it is written. -/
def signaturePhrase (self : Reader) : Phrase := do pure (← signature self).2

/-- Whether a function follows. -/
def atSignature (s : Tokens) : Bool :=
  match Phrase.all [Phrase.maybeWord "const", Phrase.maybeWord "async", Phrase.maybeWord "unsafe", convention] s with
  | some (_, rest) => atWord "fn" rest
  | none => false

/-- A body, or the semicolon that stands for it. -/
def bodyOrNone (self : Reader) : Phrase :=
  Phrase.first [(atGroup .brace, annotatedBlock self), (atSign ";", Phrase.sign ";")]

/-- A method of a trait, after its annotations. -/
def methodAfter (self : Reader) : Parser Tokens (Signature × Tokens) := do
  let (m, written) ← signature self
  pure (m, written ++ (← bodyOrNone self))

/-- A method of a trait. -/
def methodDeclaration (self : Reader) : Parser Tokens Signature := do
  let _ ← annotations self
  let (m, _) ← methodAfter self
  pure m

/-! ## Constants and types -/

/-- The name of a constant, which may be the low line. -/
def constantName : Phrase := Phrase.first [(atName, Phrase.name), (atWord "_", Phrase.anyWord)]

/-- What is written after an equals sign, if there is one. -/
def definition (value : Phrase) : Parser Tokens (Option Tokens) := do
  if ← takeSign "=" then pure (some (← value)) else pure none

/-- A definition with its equals sign, if there is one. -/
def definitionTokens (value : Option Tokens) : Tokens := value.elim .nil (.ofSign "=" ++ ·)

/-- A constant. It is kept as it stands if it is generic or has conditions, and also, where a value is called for, if it
    has none. -/
def constantItem (self : Reader) (valued : Bool) : Parser Tokens Wording := do
  let front ← Phrase.all [Phrase.word "const", constantName]
  let gs ← generics self
  let typed ← Phrase.all [Phrase.sign ":", self.typePhrase true]
  let value ← definition (self.expressionPhrase true)
  let conditional ← look (atWord "where")
  let _ ← conditions self
  let close ← Phrase.sign ";"
  if gs.isPresent || conditional || (valued && value.isNone) then pure none
  else pure (some (front ++ typed ++ definitionTokens value ++ close))

/-- Where the conditions of a type stand: before its definition, after it, or on either side. -/
inductive Place where
  | before
  | after
  | either
deriving DecidableEq

/-- A type as an item: what stands before its bounds, whether there is a colon, its bounds, its definition, and its
    conditions. -/
structure TypeItem where
  front : Tokens
  hasColon : Bool
  bounds : Tokens
  definition : Option Tokens
  conditions : Tokens

/-- Whether the bounds of a type end here. -/
def atTypeStop (s : Tokens) : Bool := atWord "where" s || atSign "=" s || atSign ";" s

/-- A type with its bounds and its definition, both of which may be absent, up to its semicolon. -/
def typeItem (self : Reader) (place : Place) : Parser Tokens TypeItem := do
  let front ← Phrase.all [Phrase.word "type", Phrase.name, (do pure (← generics self).written)]
  let hasColon ← takeSign ":"
  let bounds ← if hasColon then Phrase.listed atTypeStop "+" (self.boundPhrase true) else Phrase.nothing
  let early ← look fun s => place ≠ .after && atWord "where" s
  let first ← if early then conditions self else Phrase.nothing
  let value ← definition (self.typePhrase true)
  let last ← if place ≠ .before && !early then conditions self else Phrase.nothing
  sign ";"
  pure ⟨front, hasColon, bounds, value, first ++ last⟩

namespace TypeItem

/-- Whether a type has a definition and no colon, as it has to outside of traits. -/
def isDefinition (t : TypeItem) : Bool := t.definition.isSome && !t.hasColon

/-- A type in the order front, bounds, definition, conditions. -/
def tokens (t : TypeItem) : Tokens :=
  t.front ++ (if t.bounds.isEmpty then .nil else .ofSign ":" ++ t.bounds) ++ definitionTokens t.definition ++
    t.conditions ++ .ofSign ";"

/-- A type in the order front, conditions, definition. -/
def tokensConditionsFirst (t : TypeItem) : Tokens :=
  t.front ++ t.conditions ++ definitionTokens t.definition ++ .ofSign ";"

end TypeItem

/-! ## Invocations -/

/-- Whether the path of an invocation may begin here. -/
def atInvocationPath (s : Tokens) : Bool := atName s || atWords ["self", "super", "crate"] s || atSign "::" s

/-- An invocation in the place of an item; unless it has braces, a semicolon follows. -/
def invocationItem : Phrase := do
  let front ← Phrase.all [simplePath, Phrase.sign "!"]
  let braced ← look (atGroup .brace)
  let body ← anyGroup
  pure (front ++ body ++ (← if braced then Phrase.nothing else Phrase.sign ";"))

/-! ## Traits -/

/-- An item of a trait other than a method. -/
def otherTraitItem (self : Reader) (isPlain : Bool) : Parser Tokens Wording :=
  Phrase.first
    [(atWord "const", constantItem self false),
      (atWord "type", formed do pure (← typeItem self .after).tokens),
      (fun s => isPlain && atInvocationPath s, formed invocationItem)]

/-- An item of a trait. One with a visibility or with `default` before it is kept as it stands, and gives no method. -/
def traitItem (self : Reader) : Parser Tokens (Option Signature × Tokens) := do
  let start ← look id
  let front ← annotations self
  let mark ← Phrase.all [visibility, Phrase.maybeWord "default"]
  if ← look atSignature then
    let (m, written) ← methodAfter self
    if mark.isEmpty then pure (some m, front ++ written) else pure (none, ← since start)
  else
    let wording ← otherTraitItem self mark.isEmpty
    match wording with
    | some written => if mark.isEmpty then pure (none, front ++ written) else pure (none, ← since start)
    | none => pure (none, ← since start)

/-- Whether the bounds of a trait end here. -/
def atTraitStop (s : Tokens) : Bool := atWord "where" s || atGroup .brace s

/-- The bounds of a trait, which may be absent, and how they are written. -/
def traitBounds (self : Reader) : Parser Tokens (List Bound × Tokens) := do
  if ← takeSign ":" then
    let (bounds, trailing) ← separated atTraitStop (sign "+") (bound self false true)
    let written := Tokens.separated (.ofSign "+") trailing (bounds.map Bound.tokens)
    pure (bounds, if bounds.isEmpty then .nil else .ofSign ":" ++ written)
  else pure ([], .nil)

/-- What a trait holds, and how it is written. -/
def traitBody (self : Reader) : Parser Tokens (List Signature × Tokens) := do
  let front ← innerAnnotations self
  let items ← many Tokens.isEmpty (traitItem self)
  pure (items.filterMap (·.1), front ++ .concat (items.map (·.2)))

/-- A trait, after its annotations and its visibility, and how it is written. -/
def traitAfter (self : Reader) : Parser Tokens (TraitExpr × Tokens) := do
  let front ← Phrase.all [Phrase.maybeWord "unsafe", Phrase.maybeWord "auto", Phrase.word "trait"]
  let n ← name
  let gs ← generics self
  let (bounds, boundTokens) ← traitBounds self
  let clause ← conditions self
  let (methods, body) ← inside .brace (traitBody self)
  pure (⟨n, gs.types, bounds, methods⟩,
    .concat [front, .ofWord n, gs.written, boundTokens, clause, .enclosed .brace body])

/-- A trait. -/
def traitDeclaration (self : Reader) : Parser Tokens TraitExpr := do
  let _ ← annotations self
  let _ ← visibility
  let (t, _) ← traitAfter self
  pure t

end QueryContract.Source
