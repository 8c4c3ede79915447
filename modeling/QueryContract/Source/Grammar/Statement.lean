import QueryContract.Source.Grammar.Declaration

/-!
# `Source.Grammar.Statement` — statements and the items among them

Nothing of a body is kept but how it is written, yet a body that is no body makes the whole text none. An item of a form
that no compiler takes is still an item here, and is kept as it stands in the source.

* `itemAfter` — an item, after its annotations;
* `implementationItem`, `foreignItem` — what stands in the braces of an implementation and of a foreign block;
* `statement`, `statementsRule` — statements, and the semicolons between them.
-/

namespace QueryContract.Source

open QueryContract.Parser

/-- Generic parameters as they are written. -/
def genericsPhrase (self : Reader) : Phrase := do pure (← generics self).written

/-! ## Structures -/

/-- Whether a type that has no name follows: fields in braces after a keyword. -/
def atNamelessType (s : Tokens) : Bool := atWord "struct" s || (atWord "union" s && atGroup .brace s.next)

/-- A field with a name. One that is called by the low line may have a type without a name, kept as it stands. -/
def namedFieldWith (self : Reader) (nameless : Phrase) : Phrase := do
  let front ← Phrase.all [annotations self, visibility]
  let isLow ← look (atWord "_")
  let label ← Phrase.all [if isLow then Phrase.anyWord else Phrase.name, Phrase.sign ":"]
  let t ← if ← look (fun s => isLow && atNamelessType s) then nameless else self.typePhrase true
  pure (front ++ label ++ t)

/-- The rule of fields with names, in braces. -/
def namedFieldsRule (self : Reader) : Phrase :=
  Phrase.enclosed .brace (Phrase.commas (namedFieldWith self (taken (Phrase.all [Phrase.anyWord, self .namedFields]))))

/-- Fields without names, in parentheses. -/
def tupleFields (self : Reader) : Phrase :=
  Phrase.enclosed .paren (Phrase.commas (Phrase.all [annotations self, visibility, self.typePhrase true]))

/-- What follows the generic parameters of a structure. -/
def structureRest (self : Reader) : Phrase :=
  Phrase.first
    [(atGroup .paren, Phrase.all [tupleFields self, conditions self, Phrase.sign ";"]),
      (fun _ => true, Phrase.all
        [conditions self, Phrase.first [(atGroup .brace, namedFieldsRule self), (atSign ";", Phrase.sign ";")]])]

/-- A case of an enumeration, whose visibility leaves no trace. -/
def enumCase (self : Reader) : Phrase := do
  let front ← annotations self
  let _ ← visibility
  let rest ← Phrase.all
    [Phrase.name,
      Phrase.first
        [(atGroup .brace, namedFieldsRule self), (atGroup .paren, tupleFields self),
          (fun _ => true, Phrase.nothing)],
      defaultAfter (self.expressionPhrase true)]
  pure (front ++ rest)

/-! ## Imports -/

/-- What an item is imported as. -/
def importedName : Phrase :=
  Phrase.maybe (atWord "as")
    (Phrase.all [Phrase.word "as", Phrase.first [(atName, Phrase.name), (atWord "_", Phrase.anyWord)]])

/-- Whether a segment of an import follows. -/
def atImportWord (s : Tokens) : Bool := atName s || atWords ["self", "super", "crate", "try"] s

/-- One of several imports in braces; `roots` says whether it may start with a double colon. -/
def importInBraces (self : Reader) (roots : Bool) : Parser Tokens (Bool × Tokens) := do
  let isRoot ← look fun s => roots && atSign "::" s
  if isRoot then sign "::"
  let (inner, written) : Bool × Tokens ← self (.useTree (roots && !isRoot))
  pure (isRoot || inner, written)

/-- The rule of imports: a path, a star, or several imports in braces, and whether a double colon starts one of
    those. -/
def useTreeRule (self : Reader) (roots : Bool) : Parser Tokens (Bool × Tokens) := do
  if ← look atImportWord then
    let w ← Phrase.anyWord
    if ← takeSign "::" then
      let (_, rest) : Bool × Tokens ← self (.useTree false)
      pure (false, w ++ .ofSign "::" ++ rest)
    else pure (false, w ++ (← importedName))
  else if ← look (atSign "*") then pure (false, ← Phrase.sign "*")
  else
    let (trees, trailing) ← inside .brace (separated Tokens.isEmpty (sign ",") (importInBraces self roots))
    pure (trees.any (·.1), .enclosed .brace (.separated (.ofSign ",") trailing (trees.map (·.2))))

/-- An import; it is kept as it stands if a double colon starts one of several imports in braces. -/
def useItem (self : Reader) : Parser Tokens Wording := do
  word "use"
  let isRoot ← takeSign "::"
  let (inner, written) ← useTreeRule self (!isRoot)
  sign ";"
  pure (if inner then none else some (.ofWord "use" ++ colons isRoot ++ written ++ .ofSign ";"))

/-! ## Items of implementations -/

/-- A function, kept as it stands if it has no body. -/
def functionItem (self : Reader) : Parser Tokens Wording := do
  let front ← signaturePhrase self
  if ← takeSign ";" then pure none else pure (some (front ++ (← annotatedBlock self)))

/-- A type that has to have a definition and nothing before it, else it is kept as it stands. -/
def definedType (self : Reader) (place : Place) : Parser Tokens Wording := do
  let t ← typeItem self place
  pure (if t.isDefinition then some (if place = .before then t.tokensConditionsFirst else t.tokens) else none)

/-- A part after tokens that belong to it. -/
def after (front : Tokens) (p : Parser Tokens Wording) : Parser Tokens Wording := do
  pure ((← p).map (front ++ ·))

/-- An item of an implementation. -/
def implementationItem (self : Reader) : Phrase := do
  let start ← look id
  let front ← annotations self
  let mark ← Phrase.all
    [visibility, Phrase.maybe (fun s => atWord "default" s && !atSign "!" s.next) (Phrase.word "default")]
  worded start front (after mark (Phrase.first
    [(atSignature, functionItem self),
      (atWord "const", constantItem self true),
      (atWord "type", definedType self .after),
      (fun s => mark.isEmpty && atInvocationPath s, formed invocationItem)]))

/-- The items in the braces of an implementation, a foreign block or a module. -/
def itemsInBraces (self : Reader) (item : Phrase) : Phrase :=
  Phrase.enclosed .brace (Phrase.all [innerAnnotations self, Phrase.several Tokens.isEmpty item])

/-- Whether a type can be the trait of an implementation. -/
def isTraitPath : TypeExpr → Bool
  | .path _ _ => true
  | _ => false

/-- An implementation. It is kept as it stands if it has a visibility, if it is for constants, or if its trait is no
    path. One that is for no trait cannot be negative. -/
def implementation (self : Reader) (isPrivate : Bool) : Parser Tokens Wording := do
  let front ← Phrase.all [Phrase.maybeWord "default", Phrase.maybeWord "unsafe", Phrase.word "impl"]
  let gs ← if ← look atParameters then genericsPhrase self else Phrase.nothing
  let constant ← Phrase.maybe (fun s => atWord "const" s || (atSign "?" s && atWord "const" s.next))
    (Phrase.all [Phrase.maybeSign "?", Phrase.word "const"])
  let negation ← Phrase.maybe (fun s => atSign "!" s && !atGroup .brace s.next) (Phrase.sign "!")
  let first ← self.type true
  let isFor ← takeWord "for"
  if !isFor && !negation.isEmpty then failure
  let target ← if isFor then pure (.ofWord "for" ++ (← self.typePhrase true)) else Phrase.nothing
  let clause ← conditions self
  let body ← itemsInBraces self (implementationItem self)
  if !isPrivate || !constant.isEmpty || (isFor && !isTraitPath first) then pure none
  else pure (some (.concat [front, gs, negation, first.tokens, target, clause, body]))

/-! ## Foreign items -/

/-- Whether a function of a foreign block follows, which may be marked as safe. -/
def atForeignSignature (s : Tokens) : Bool :=
  atSignature s ||
    match Phrase.all [Phrase.maybeWord "const", Phrase.maybeWord "async", Phrase.word "safe", convention] s with
    | some (_, rest) => atWord "fn" rest
    | none => false

/-- A function of a foreign block, kept as it stands if it is marked as safe or has a body. -/
def foreignFunction (self : Reader) : Parser Tokens Wording := do
  let marked ← look (!atSignature ·)
  let front ←
    if marked then
      Phrase.all [Phrase.maybeWord "const", Phrase.maybeWord "async", Phrase.word "safe", signaturePhrase self]
    else signaturePhrase self
  if ← look (atGroup .brace) then kept (annotatedBlock self)
  else
    sign ";"
    pure (if marked then none else some (front ++ .ofSign ";"))

/-- Whether a static variable of a foreign block follows. -/
def atForeignStatic (s : Tokens) : Bool :=
  atWord "static" s || (atWords ["unsafe", "safe"] s && atWord "static" s.next)

/-- A static variable of a foreign block, kept as it stands if it is marked as safe or unsafe or has a value. -/
def foreignStatic (self : Reader) : Parser Tokens Wording := do
  let mark ← Phrase.first
    [(atWord "static", Phrase.nothing), (atWord "unsafe", Phrase.anyWord), (atWord "safe", Phrase.anyWord)]
  let front ← Phrase.all
    [Phrase.word "static", Phrase.maybeWord "mut", Phrase.name, Phrase.sign ":", self.typePhrase true]
  let value ← definition (self.expressionPhrase true)
  sign ";"
  pure (if mark.isEmpty && value.isNone then some (front ++ .ofSign ";") else none)

/-- A type of a foreign block, kept as it stands if there is more to it than its name. -/
def foreignType (self : Reader) : Parser Tokens Wording := do
  let t ← typeItem self .either
  pure (if t.hasColon || t.definition.isSome then none else some t.tokens)

/-- An item of a foreign block. -/
def foreignItem (self : Reader) : Phrase := do
  let start ← look id
  let front ← annotations self
  let mark ← visibility
  worded start front (after mark (Phrase.first
    [(atForeignSignature, foreignFunction self),
      (atForeignStatic, foreignStatic self),
      (atWord "type", foreignType self),
      (fun s => mark.isEmpty && atInvocationPath s, formed invocationItem)]))

/-- A block of foreign items. -/
def foreignBlock (self : Reader) : Phrase :=
  Phrase.all
    [Phrase.maybeWord "unsafe", Phrase.word "extern", Phrase.maybe atString literal,
      itemsInBraces self (foreignItem self)]

/-! ## Items -/

/-- A static variable, kept as it stands if it lacks its type or its value. -/
def staticItem (self : Reader) : Parser Tokens Wording := do
  let front ← Phrase.all [Phrase.word "static", Phrase.maybeWord "mut", Phrase.name]
  if ← look (atSign "=") then
    kept (Phrase.all [Phrase.sign "=", self.expressionPhrase true, Phrase.sign ";"])
  else
    let typed ← Phrase.all [Phrase.sign ":", self.typePhrase true]
    if ← takeSign ";" then pure none
    else
      formed (do
        pure (front ++ typed ++ (← Phrase.all [Phrase.sign "=", self.expressionPhrase true, Phrase.sign ";"])))

/-- An external library. -/
def libraryItem : Phrase :=
  Phrase.all
    [Phrase.word "extern", Phrase.word "crate", Phrase.first [(atWord "self", Phrase.anyWord), (atName, Phrase.name)],
      importedName, Phrase.sign ";"]

/-- A module, with its items or without. -/
def moduleItem (self : Reader) : Phrase :=
  Phrase.all
    [Phrase.maybeWord "unsafe", Phrase.word "mod",
      Phrase.first [(atWord "try", Phrase.anyWord), (fun _ => true, Phrase.name)],
      Phrase.first [(atSign ";", Phrase.sign ";"), (atGroup .brace, itemsInBraces self (self .item))]]

/-- A trait as it is written. -/
def traitPhrase (self : Reader) : Phrase := do pure (← traitAfter self).2

/-- An abbreviation for bounds. -/
def traitAlias (self : Reader) : Phrase :=
  Phrase.all
    [Phrase.word "trait", Phrase.name, genericsPhrase self, Phrase.sign "=",
      Phrase.row (fun s => atWord "where" s || atSign ";" s) "+" (self.boundPhrase false), conditions self,
      Phrase.sign ";"]

/-- A trait, or an abbreviation for bounds. -/
def traitOrAlias (self : Reader) : Phrase := fun s =>
  match Phrase.all [Phrase.word "trait", Phrase.name, genericsPhrase self] s with
  | some (_, rest) => if atSign "=" rest then traitAlias self s else traitPhrase self s
  | none => none

/-- An invocation that gives a name, or any other. -/
def namedInvocation : Phrase := do
  let front ← Phrase.all
    [simplePath, Phrase.sign "!", Phrase.maybe (fun s => atName s || atWord "try" s) Phrase.anyWord]
  let braced ← look (atGroup .brace)
  let body ← anyGroup
  pure (front ++ body ++ (← if braced then Phrase.nothing else Phrase.sign ";"))

/-- A rule for invocations. -/
def ruleItem : Phrase :=
  Phrase.all
    [Phrase.word "macro", Phrase.name, Phrase.maybe (atGroup .paren) anyGroup, Phrase.provided (atGroup .brace),
      anyGroup]

/-- Whether a trait with a mark before it follows. -/
def atMarkedTrait (s : Tokens) : Bool := atWord "auto" s && atWord "trait" s.next

/-- The item of each kind, after its visibility. -/
def itemKinds (self : Reader) (isPrivate : Bool) : List ((Tokens → Bool) × Parser Tokens Wording) :=
  [(atSignature, functionItem self),
    (fun s => atWord "extern" s && atWord "crate" s.next, formed libraryItem),
    (fun s => isPrivate && atWord "extern" s, formed (foreignBlock self)),
    (atWord "use", useItem self),
    (atWord "static", staticItem self),
    (atWord "const", constantItem self true),
    (fun s => atWord "unsafe" s && (atWord "trait" s.next || atMarkedTrait s.next), formed (traitPhrase self)),
    (fun s => atWord "unsafe" s && atWord "impl" s.next, implementation self isPrivate),
    (fun s => isPrivate && atWord "unsafe" s && atWord "extern" s.next, formed (foreignBlock self)),
    (fun s => atWord "unsafe" s && atWord "mod" s.next, formed (moduleItem self)),
    (atWord "mod", formed (moduleItem self)),
    (atWord "type", definedType self .before),
    (atWord "struct", formed (Phrase.all [Phrase.anyWord, Phrase.name, genericsPhrase self, structureRest self])),
    (atWord "enum", formed (Phrase.all
      [Phrase.anyWord, Phrase.name, genericsPhrase self, conditions self,
        Phrase.enclosed .brace (Phrase.commas (enumCase self))])),
    (fun s => atWord "union" s && atName s.next, formed (Phrase.all
      [Phrase.anyWord, Phrase.name, genericsPhrase self, conditions self, namedFieldsRule self])),
    (atWord "trait", formed (traitOrAlias self)),
    (atMarkedTrait, formed (traitPhrase self)),
    (fun s => atWord "impl" s || (atWord "default" s && !atSign "!" s.next), implementation self isPrivate),
    (atWord "macro", kept ruleItem),
    (fun s => isPrivate && atInvocationPath s, formed namedInvocation)]

/-- An item, after its annotations: the tokens from those on in the source, and their own form. -/
def itemAfter (self : Reader) (start front : Tokens) : Phrase := do
  let mark ← visibility
  worded start front (after mark (Phrase.first (itemKinds self mark.isEmpty)))

/-- The rule of items. -/
def itemRule (self : Reader) : Phrase := do
  let start ← look id
  let front ← annotations self
  itemAfter self start front

/-! ## Statements -/

/-- Whether a statement is an item by its first tokens. -/
def atItem (s : Tokens) : Bool :=
  let second := s.next
  let third := s.next.next
  atWords ["pub", "extern", "use", "fn", "mod", "type", "struct", "enum", "trait", "impl", "macro"] s ||
    (atWord "crate" s && !atSign "::" second) ||
    (atWord "static" s && (atWord "mut" second || atName second)) ||
    (atWord "const" s && !(atGroup .brace second || atWords ["static", "move"] second || atSign "|" second ||
      (atWord "async" second && !atWords ["unsafe", "extern", "fn"] third))) ||
    (atWord "unsafe" s && !atGroup .brace second) ||
    (atWord "async" s && atWords ["unsafe", "extern", "fn"] second) ||
    (atWord "union" s && atName second) || atMarkedTrait s ||
    (atWord "default" s && atWords ["unsafe", "impl"] second)

/-- What follows the path of an invocation, if a statement starts with one. -/
def invocationRest? (s : Tokens) : Option Tokens :=
  match simplePath s with
  | some (_, rest) => if atSign "!" rest then some rest.next else none
  | none => none

/-- Whether a statement is an invocation that gives a name. -/
def atNamedInvocation (s : Tokens) : Bool :=
  (invocationRest? s).any fun rest => atName rest || atWord "try" rest

/-- Whether a statement is an invocation with braces, which ends there unless a field or a question mark follows. -/
def atBracedInvocation (s : Tokens) : Bool :=
  (invocationRest? s).any fun rest => atGroup .brace rest && !atField rest.next

/-- A variable with its value, and with what happens where the pattern does not fit. -/
def localVariable (self : Reader) : Phrase := do
  let front ← Phrase.all
    [Phrase.word "let", (do pure (← self.pattern).written),
      Phrase.maybe (atSign ":") (Phrase.all [Phrase.sign ":", self.typePhrase true])]
  let value ← defaultAfter (self.expressionPhrase true)
  let other ← Phrase.maybe (fun s => !value.isEmpty && !value.endsInBrace && atWord "else" s)
    (Phrase.all [Phrase.word "else", block self])
  pure (front ++ value ++ other ++ (← Phrase.sign ";"))

/-- Whether an expression needs a semicolon after it unless it is the last of a block. -/
def needsSemicolon (e : Expression) : Bool := !e.isKind .blockLike && !e.isKind .bracedCall

/-- A statement, and whether it has to be the last because nothing separates it from the next. -/
def statement (self : Reader) : Parser Tokens (Tokens × Bool) := do
  let start ← look id
  let front ← annotations self
  if ← look atBracedInvocation then
    let call ← Phrase.all [simplePath, Phrase.sign "!", anyGroup, Phrase.maybeSign ";"]
    pure (front ++ call, false)
  else if ← look (atWord "let") then pure (front ++ (← localVariable self), false)
  else if ← look (fun s => atItem s || atNamedInvocation s) then pure (← itemAfter self start front, false)
  else
    let e ← leadingRule self
    let close ← Phrase.maybeSign ";"
    pure ((e.annotated front).tokens ++ close, close.isEmpty && needsSemicolon e)

/-- A statement or a semicolon. -/
def statementOrSign (self : Reader) : Phrase := do
  if ← look (atSign ";") then Phrase.sign ";"
  else
    let (written, isLast) ← statement self
    if isLast then pure (written ++ (← Phrase.provided Tokens.isEmpty)) else pure written

/-- The rule of the statements of a block. -/
def statementsRule (self : Reader) : Phrase := Phrase.several Tokens.isEmpty (statementOrSign self)

end QueryContract.Source
