import QueryContract.Source.Grammar.Pattern

/-!
# `Source.Grammar.Expression` — expressions

Operands are joined by operators of falling level; a left operand that has been read is handed on, so that each rule
only reads forward.

* `operator?`, `levelAt` — the operators and their levels;
* `followed`, `atom` — operands, and what may follow them;
* `unaryRule`, `operandRule`, `operandFromRule`, `expressionFromRule`, `expressionRule` — the rules;
* `leadingRule` — an expression at the start of a statement, which ends after a block.
-/

namespace QueryContract.Source

open QueryContract.Parser

/-! ## Operators -/

/-- The operators with two operands, those that others start with last. -/
def operators : List (String × Level) :=
  [("+=", .assign), ("-=", .assign), ("*=", .assign), ("/=", .assign), ("%=", .assign), ("^=", .assign),
    ("&=", .assign), ("|=", .assign), ("<<=", .assign), (">>=", .assign), ("&&", .and), ("||", .or),
    ("<<", .shift), (">>", .shift), ("==", .compare), ("<=", .compare), ("!=", .compare), (">=", .compare),
    ("+", .sum), ("-", .sum), ("*", .product), ("/", .product), ("%", .product), ("^", .bitXor), ("&", .bitAnd),
    ("|", .bitOr), ("<", .compare), (">", .compare)]

/-- The operator with two operands that follows. -/
def operator? (s : Tokens) : Option (String × Level) := operators.find? fun (op, _) => atSign op s

/-- Whether an assignment follows. -/
def atAssign (s : Tokens) : Bool := atSign "=" s && !atSign "=>" s

/-- The level of what follows an operand. -/
def levelAt (s : Tokens) : Level :=
  match operator? s with
  | some (_, level) => level
  | none =>
    if atAssign s then .assign else if atSign ".." s then .range else if atWord "as" s then .cast else .lowest

/-- Whether a range without an end ends here. -/
def atRangeEnd (braces : Bool) (s : Tokens) : Bool :=
  s.isEmpty || (atSign "." s && !atSign ".." s) || (!braces && atGroup .brace s) || atWord "as" s ||
    [",", ";", "?", "=>", "=", "+", "/", "%", "^", ">", "<=", "!=", "-=", "*=", "&=", "|=", "<<="].any (atSign · s)

/-- The dots of a range and its end. -/
def rangeRest (self : Reader) (braces : Bool) : Phrase := do
  let (closed, dots) ← rangeSign false
  if ← look (fun s => !closed && atRangeEnd braces s) then pure dots
  else
    let last : Expression ← self (.operand braces .range)
    pure (dots ++ if braces then last.tokens else last.tokensAfterRange)

/-- Whether something follows that may not stand directly after a cast. -/
def atCastError (s : Tokens) : Bool :=
  (atSign "." s && !atSign ".." s) || atSign "?" s || atGroup .bracket s || atGroup .paren s

/-- An expression of which a left operand has been read; operators below the base level do not belong to it. -/
def expressionFromRule (self : Reader) (braces : Bool) (base : Level) (left : Expression) :
    Parser Tokens Expression := fun s =>
  if left.isRange then some (left, s)
  else
    match operator? s with
    | some (op, level) =>
      if level.rank < base.rank then some (left, s)
      else if level = .compare ∧ left.isComparison then none
      else
        (do
          sign op
          let right : Expression ← self (.operand braces level)
          self (.expressionFrom braces base (.joined left op level right)) : Parser Tokens Expression) s
    | none =>
      (do
        if base.rank ≤ Level.assign.rank ∧ atAssign s then
          sign "="
          let right : Expression ← self (.operand braces .assign)
          self (.expressionFrom braces base (.joined left "=" .assign right))
        else if base.rank ≤ Level.range.rank ∧ atSign ".." s then
          pure (.range left.isLabelled .nil (left.tokens ++ (← rangeRest self braces)))
        else if atWord "as" s then
          word "as"
          let t ← self.type false
          require (!atCastError ·)
          self (.expressionFrom braces base (.cast left t))
        else pure left : Parser Tokens Expression) s

/-- A right operand that has been read in part: operators of a higher level belong to it, and a further assignment. -/
def operandFromRule (self : Reader) (braces : Bool) (level : Level) (left : Expression) :
    Parser Tokens Expression := do
  let next ← look levelAt
  if level.rank < next.rank ∨ (next = level ∧ level = .assign) then
    let before ← look Tokens.size
    let more ← expressionFromRule self braces next left
    let after ← look Tokens.size
    if after = before then pure more else self (.operandFrom braces level more)
  else pure left

/-! ## Parts -/

/-- An expression in parentheses or with commas, as arguments are written. -/
def arguments (self : Reader) : Phrase := Phrase.enclosed .paren (Phrase.commas (self.expressionPhrase true))

/-- The expression at the head of a branch or a loop, which no brace belongs to. -/
def headExpression (self : Reader) : Phrase := self.expressionPhrase false

/-- Whether a literal with a point in it follows, which stands for the fields of nested tuples. -/
def atNumbers : Tokens → Bool
  | .leaf (.literal written) _ => isNumber written && written.toList.contains '.'
  | _ => false

/-- The fields of nested tuples that one literal stands for, and whether a point is left at its end. -/
def indices : Parser Tokens (Tokens × Bool)
  | .leaf (.literal written) rest =>
    (fieldNumbers? written).map fun (numbers, goesOn) =>
      ((.separated (.ofSign ".") goesOn (numbers.map fun n => .ofLiteral (toString n)), goesOn), rest)
  | _ => none

/-- A field or a method, after the point. -/
def fieldOrMethod (self : Reader) : Phrase := do
  if ← look (atWord "await") then Phrase.anyWord
  else if ← look (!atName ·) then index
  else
    let n ← Phrase.name
    if ← look (atSign "::") then
      let generic ← angle self
      pure (n ++ generic.tokens ++ (← arguments self))
    else pure (n ++ (← Phrase.maybe (atGroup .paren) (arguments self)))

/-- What follows a point. -/
def afterPoint (self : Reader) : Phrase := do
  if ← look atNumbers then
    let (front, goesOn) ← indices
    pure (front ++ (← if goesOn then fieldOrMethod self else Phrase.nothing))
  else fieldOrMethod self

/-- Whether a call or an index follows. -/
def atCall (s : Tokens) : Bool := atGroup .paren s || atGroup .bracket s

/-- Whether a field or a question mark follows. -/
def atField (s : Tokens) : Bool := (atSign "." s && !atSign ".." s) || atSign "?" s

/-- What follows an operand: calls, indices, fields, methods, question marks. -/
def followed (self : Reader) (e : Expression) : Parser Tokens Expression := do
  if ← look (fun s => atCall s || (!e.isRange && atField s)) then
    let parts ← Phrase.several (fun s => !(atCall s || atField s))
      (Phrase.first
        [(atGroup .paren, arguments self),
          (atGroup .bracket, Phrase.enclosed .bracket (self.expressionPhrase true)),
          (atSign ".", Phrase.all [Phrase.sign ".", afterPoint self]),
          (atSign "?", Phrase.sign "?")])
    pure (.operand .simple e.isLabelled .nil (e.tokens ++ parts))
  else pure e

/-! ## Blocks and branches -/

/-- A condition with its block and what follows `else`. -/
def conditionalRule (self : Reader) : Phrase :=
  Phrase.all
    [Phrase.word "if", headExpression self, block self,
      Phrase.maybe (atWord "else")
        (Phrase.all [Phrase.word "else",
          Phrase.first [(atWord "if", self .conditional), (atGroup .brace, block self)]])]

/-- Whether the parameters that a closure is generic in follow. -/
def atClosureBinder (s : Tokens) : Bool := atWord "for" s && atParameters s.next

/-- The loops, and blocks with a label. -/
def loops (self : Reader) : List ((Tokens → Bool) × Phrase) :=
  [(atWord "while", Phrase.all [Phrase.anyWord, headExpression self, annotatedBlock self]),
    (atWord "for", Phrase.all
      [Phrase.anyWord, alternativesPhrase self, Phrase.word "in", headExpression self, annotatedBlock self]),
    (atWord "loop", Phrase.all [Phrase.anyWord, annotatedBlock self])]

/-- A loop or a block with a label. -/
def labelled (self : Reader) : Phrase :=
  Phrase.all
    [Phrase.lifetime, Phrase.sign ":", Phrase.first (loops self ++ [(atGroup .brace, annotatedBlock self)])]

/-- An arm of a `match`: its patterns, perhaps a condition, the body, and the comma that has to follow unless the body
    is block-like or the last one. -/
def arm (self : Reader) : Phrase := do
  let head ← Phrase.all
    [annotations self, alternativesPhrase self,
      Phrase.maybe (atWord "if") (Phrase.all [Phrase.word "if", self.expressionPhrase true]), Phrase.sign "=>"]
  let body : Expression ← self .leading
  let comma ←
    if ← look (fun s => !body.isKind .blockLike && !s.isEmpty) then Phrase.sign "," else Phrase.maybeSign ","
  pure (head ++ body.tokens ++ comma)

/-- The arms of a `match`. -/
def arms (self : Reader) : Phrase :=
  Phrase.all [innerAnnotations self, Phrase.several Tokens.isEmpty (arm self)]

/-! ## Closures -/

/-- An argument of a closure. -/
def closureInput (self : Reader) : Phrase := do
  let front ← annotations self
  let p ← self.pattern
  if ← takeSign ":" then pure (front ++ p.written ++ .ofSign ":" ++ (← self.typePhrase true))
  else pure (p.annotatedTokens front)

/-- A closure. -/
def closure (self : Reader) (braces : Bool) : Phrase :=
  Phrase.all
    [Phrase.maybe (atWord "for") (binder self), Phrase.maybeWord "const", Phrase.maybeWord "static",
      Phrase.maybeWord "async", Phrase.maybeWord "move", Phrase.sign "|",
      Phrase.listed (atSign "|") "," (closureInput self), Phrase.sign "|",
      Phrase.first
        [(atSign "->", Phrase.all [Phrase.sign "->", self.typePhrase true, block self]),
          (fun _ => true, self.expressionPhrase braces)]]

/-- Whether a closure follows. -/
def atClosure (s : Tokens) : Bool :=
  atSign "|" s || atWord "move" s || atClosureBinder s || (atWord "const" s && !atGroup .brace s.next) ||
    atWord "static" s || (atWord "async" s && (atSign "|" s.next || atWord "move" s.next))

/-! ## Atoms -/

/-- A field of a structure: its name and its value, which a name may go without. -/
def fieldValue (self : Reader) : Phrase := do
  let front ← annotations self
  let isNumber ← look (!atName ·)
  let f ← field
  if ← look (fun s => isNumber || atSign ":" s) then
    pure (front ++ f ++ (← Phrase.all [Phrase.sign ":", self.expressionPhrase true]))
  else pure (front ++ f)

/-- A field of a structure, or the structure that all others are taken from, which has to be the last. -/
def fieldOrBase (self : Reader) : Phrase := do
  if ← look (atSign "..") then
    Phrase.all
      [Phrase.sign "..", Phrase.maybe (!Tokens.isEmpty ·) (self.expressionPhrase true),
        Phrase.provided Tokens.isEmpty]
  else fieldValue self

/-- An expression that starts with a path: an invocation, a structure, or the path. -/
def pathExpression (self : Reader) (braces : Bool) : Parser Tokens Expression := do
  let (plain, p) ← valuePath self
  if ← look (fun s => plain && atInvocation s) then
    sign "!"
    let kind ← look fun s => if atGroup .brace s then OperandKind.bracedCall else .simple
    pure (.operand kind false .nil (p ++ .ofSign "!" ++ (← anyGroup)))
  else if ← look (fun s => braces && atGroup .brace s) then
    pure (.simple (p ++ (← Phrase.enclosed .brace (Phrase.commas (fieldOrBase self)))))
  else pure (.simple p)

/-- What stands in the brackets of an array: elements, or one element and how often it is repeated. -/
def arrayContent (self : Reader) : Phrase :=
  Phrase.maybe (!Tokens.isEmpty ·) do
    let e ← self.expressionPhrase true
    pure (e ++ (← Phrase.first
      [(Tokens.isEmpty, Phrase.nothing),
        (atSign ",", Phrase.all [Phrase.sign ",", Phrase.commas (self.expressionPhrase true)]),
        (atSign ";", Phrase.all [Phrase.sign ";", self.expressionPhrase true])]))

/-- Whether an expression can begin here. -/
def atExpression (s : Tokens) : Bool :=
  (atAnyWord s && !atWord "as" s) || atAnyGroup s || atLiteral s || (atSign "!" s && !atSign "!=" s) ||
    (atSign "-" s && !atSign "-=" s && !atSign "->" s) || (atSign "*" s && !atSign "*=" s) ||
    (atSign "|" s && !atSign "|=" s) || (atSign "&" s && !atSign "&=" s) || atSign ".." s ||
    (atSign "<" s && !atSign "<=" s && !atSign "<<=" s) || atSign "::" s || atLifetime s || atSign "#" s

/-- The value that a jump may carry. -/
def jumpValue (self : Reader) : Phrase := Phrase.maybe atExpression (self.expressionPhrase true)

/-- The end of a loop, perhaps with a label and with a value. Without a label of its own the value stands in parentheses
    if it starts with one. -/
def loopEnd (self : Reader) (braces : Bool) : Phrase := do
  let front ← Phrase.all
    [Phrase.word "break", Phrase.maybe atLifetime (Phrase.all [Phrase.lifetime, Phrase.provided (!atSign ":" ·)])]
  if ← look (fun s => atExpression s && (braces || !atGroup .brace s)) then
    let value ← self.expression true
    pure (front ++ (if front.length = 1 && value.isLabelled then value.enclosedTokens else value.tokens))
  else pure front

/-- An expression made by its first token, and not block-like. -/
def simpleAtoms (self : Reader) (braces : Bool) : List ((Tokens → Bool) × Phrase) :=
  [(atGroup .paren, arguments self),
    (atWord "break", loopEnd self braces),
    (atWord "continue", Phrase.all [Phrase.anyWord, Phrase.maybe atLifetime Phrase.lifetime]),
    (atWords ["return", "yield"], Phrase.all [Phrase.anyWord, jumpValue self]),
    (atGroup .bracket, Phrase.enclosed .bracket (arrayContent self)),
    (atWord "let", do
      let front ← Phrase.all [Phrase.anyWord, alternativesPhrase self, Phrase.sign "="]
      let left : Expression ← self (.unary braces)
      let value : Expression ← self (.expressionFrom braces .compare left)
      pure (front ++ value.tokens)),
    (atWord "_", Phrase.anyWord)]

/-- A built-in construct, or a call that takes the place of the function. -/
def verbatimAtom (self : Reader) : Phrase :=
  taken (Phrase.first
    [(atBuiltin, builtin), (atWord "become", Phrase.all [Phrase.anyWord, self.expressionPhrase true])])

/-- A block-like expression made by its first token. -/
def blockAtoms (self : Reader) : List ((Tokens → Bool) × Phrase) :=
  [(atWord "if", conditionalRule self),
    (atWord "match", Phrase.all [Phrase.anyWord, headExpression self, Phrase.enclosed .brace (arms self)]),
    (fun s => atWord "try" s && atGroup .brace s.next, Phrase.all [Phrase.anyWord, block self]),
    (atWord "unsafe", Phrase.all [Phrase.anyWord, annotatedBlock self]),
    (fun s => atWord "const" s && atGroup .brace s.next, constantBlock self),
    (atGroup .brace, annotatedBlock self)] ++ loops self

/-- A block-like expression, perhaps with a label. -/
def blockAtom (self : Reader) : Parser Tokens Expression := do
  if ← look atLifetime then pure (.operand .blockLike true .nil (← labelled self))
  else pure (.operand .blockLike false .nil (← Phrase.first (blockAtoms self)))

/-- Whether one of the phrases begins here. -/
def atOneOf (choices : List ((Tokens → Bool) × Phrase)) (s : Tokens) : Bool := choices.any (·.1 s)

/-- Whether an asynchronous block follows. -/
def atAsyncBlock (s : Tokens) : Bool :=
  atWord "async" s && (atGroup .brace s.next || (atWord "move" s.next && atGroup .brace s.next.next))

/-- Whether an expression starts with a path. -/
def atPathExpression (s : Tokens) : Bool :=
  atPath s || (atWord "try" s && (atSign "!" s.next || atSign "::" s.next))

/-- Whether an expression follows that is kept as it stands. -/
def atVerbatim (s : Tokens) : Bool := atBuiltin s || atWord "become" s

/-- An operand without what may follow it. -/
def atom (self : Reader) (braces : Bool) : Parser Tokens Expression := do
  if ← look atLiteral then pure (.simple (← literal))
  else if ← look atAsyncBlock then
    pure (.simple (← Phrase.all [Phrase.anyWord, Phrase.maybeWord "move", block self]))
  else if ← look atClosure then pure (.simple (← closure self braces))
  else if ← look atVerbatim then pure (.operand .verbatim false .nil (← verbatimAtom self))
  else if ← look atPathExpression then pathExpression self braces
  else if ← look (atOneOf (simpleAtoms self braces)) then pure (.simple (← Phrase.first (simpleAtoms self braces)))
  else if ← look (atSign "..") then pure (.range false .nil (← rangeRest self braces))
  else blockAtom self

/-! ## The rules -/

/-- A prefix operator. -/
def prefixOperator : Phrase :=
  Phrase.first
    [(atSign "&", Phrase.all [Phrase.sign "&",
        Phrase.first
          [(fun s => atWord "raw" s && atWords ["mut", "const"] s.next, Phrase.all [Phrase.anyWord, Phrase.anyWord]),
            (fun _ => true, Phrase.maybeWord "mut")]]),
      (atSign "*", Phrase.sign "*"), (atSign "!", Phrase.sign "!"), (atSign "-", Phrase.sign "-")]

/-- Whether a prefix operator follows. -/
def atPrefixOperator (s : Tokens) : Bool := ["&", "*", "!", "-"].any (atSign · s)

/-- The rule of operands with the operators before them. An operand that is kept as it stands keeps the annotations
    before it; a range may not have any here. -/
def unaryRule (self : Reader) (braces : Bool) : Parser Tokens Expression := do
  let start ← look id
  let front ← annotations self
  if ← look atPrefixOperator then
    let op ← prefixOperator
    let e : Expression ← self (.unary braces)
    pure (.operand .simple false front (op ++ e.tokens))
  else
    let e ← followed self (← atom self braces)
    if e.isKind .verbatim then pure (.operand .verbatim false .nil (← since start))
    else if !front.isEmpty && e.isRange then failure
    else pure (e.annotated front)

/-- The rule of right operands. -/
def operandRule (self : Reader) (braces : Bool) (level : Level) : Parser Tokens Expression := do
  let e ← unaryRule self braces
  self (.operandFrom braces level e)

/-- The rule of expressions. -/
def expressionRule (self : Reader) (braces : Bool) : Parser Tokens Expression := do
  let e ← unaryRule self braces
  self (.expressionFrom braces .lowest e)

/-- Whether a block-like expression begins here. -/
def atBlockAtom (self : Reader) (s : Tokens) : Bool :=
  !atClosureBinder s && (atLifetime s || atOneOf (blockAtoms self) s)

/-- The rule of expressions at the start of a statement and in the body of an arm. A block-like one ends after its
    block unless a field or a question mark follows. -/
def leadingRule (self : Reader) : Parser Tokens Expression := do
  let front ← annotations self
  let e ← if ← look (atBlockAtom self) then blockAtom self else unaryRule self true
  if !e.isKind .blockLike then self (.expressionFrom true .lowest (e.annotated front))
  else if ← look atField then
    let e ← followed self e
    self (.expressionFrom true .lowest (e.annotated front))
  else pure (e.annotated front)

end QueryContract.Source
