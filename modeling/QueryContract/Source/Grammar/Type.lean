import QueryContract.Source.Grammar.Generic

/-!
# `Source.Grammar.Type` — types, paths and bounds

* `path`, `segment`, `angle` — paths with generic arguments, as types and expressions write them;
* `bound`, `boundChain` — traits and lifetimes joined by plus signs;
* `typeRule` — the rule of types.
-/

namespace QueryContract.Source

open QueryContract.Parser

/-! ## Functions -/

/-- Whether a string literal follows. -/
def atString : Tokens → Bool
  | .leaf (.literal written) _ => written.startsWith "\"" || written.startsWith "r"
  | _ => false

/-- The calling convention of a function, which may be absent. -/
def convention : Phrase :=
  Phrase.maybe (atWord "extern") (Phrase.all [Phrase.word "extern", Phrase.maybe atString literal])

/-- The result type after an arrow, both of which may be absent. -/
def result? (self : Reader) (plus : Bool) : Parser Tokens (Option TypeExpr) := do
  if ← takeSign "->" then pure (some (← self.type plus)) else pure none

/-- A result type with its arrow, if there is one. -/
def resultTokens (t : Option TypeExpr) : Tokens := t.elim .nil (.ofSign "->" ++ ·.tokens)

/-! ## Bounds and paths -/

/-- The keywords that are a segment of a path and take no arguments. -/
def bareSegments : List String := ["super", "self", "crate", "try"]

/-- Whether generic arguments follow the name of a segment; in an expression they need a double colon. -/
def atAngle (inExpression : Bool) (s : Tokens) : Bool :=
  (!inExpression && atSign "<" s && !atSign "<=" s && !atSign "<<=" s) ||
    (atSign "::" s && atSign "<" s.next.next)

/-- Whether argument types in parentheses follow, perhaps after a double colon. -/
def atInputs (s : Tokens) : Bool := atGroup .paren s || (atSign "::" s && atGroup .paren s.next.next)

/-- Whether a further segment follows. -/
def atSegment (s : Tokens) : Bool := atSign "::" s && !atGroup .paren s.next.next

/-- What follows an operand of an operator that may be repeated. -/
def linkWhile (test : Tokens → Bool) (operator : String) : Parser Tokens Link := do
  if ← look test then
    sign operator
    pure .again
  else pure .done

/-- The argument types of a trait for functions, as they are written after its name. -/
def inputs (self : Reader) : Parser Tokens Arguments := do
  let _ ← takeSign "::"
  let types ← Phrase.enclosed .paren (Phrase.commas (self.typePhrase true))
  let result ← result? self false
  pure (.parenthesized (types ++ resultTokens result) (result.any TypeExpr.endsBare))

/-- What may follow a plus sign. -/
def atBound (constants : Bool) (s : Tokens) : Bool :=
  atAnyWord s || atSign "::" s || atSign "?" s || atLifetime s || atGroup .paren s ||
    (constants && atGroup .bracket s)

/-- A generic parameter that a type uses, and whether it is a lifetime. -/
def captured : Parser Tokens (Bool × Tokens) := do
  if ← look atLifetime then pure (true, ← Phrase.lifetime)
  else if ← look (atWord "Self") then pure (false, ← Phrase.anyWord)
  else pure (false, ← Phrase.name)

/-- The list of generic parameters that a type uses, the lifetimes first. -/
def capture : Phrase := do
  let front ← Phrase.all [Phrase.word "use", Phrase.sign "<"]
  let (items, trailing) ← separated (atSign ">") (sign ",") captured
  pure (front ++ writeArguments trailing items ++ (← Phrase.sign ">"))

/-- The last segment given other arguments. -/
def replaceLast (arguments : Arguments) : List Segment → List Segment
  | [] => []
  | [s] => [.mk s.name arguments]
  | s :: ss => s :: replaceLast arguments ss

/-- Whether the last segment has no arguments. -/
def takesInputs (segments : List Segment) : Bool := segments.getLast?.any (·.arguments.isEmpty)

/-- Whether a generic argument is a lone name, which an equals sign or a colon may follow. -/
def isLoneName : TypeExpr → Bool
  | .path false [.mk _ .none] => true
  | .path false [.mk _ (.angle _ _ _)] => true
  | _ => false

/-- A generic argument. -/
def argument (self : Reader) : Parser Tokens Argument := do
  if ← look (fun s => atLifetime s && !atSign "+" s.next) then pure (.lifetime (← lifetime))
  else if ← look atConstant then pure (.other (← constantArgument self))
  else
    let t ← self.type true
    if !isLoneName t then pure (.type t)
    else if ← takeSign "=" then
      let front := t.tokens ++ .ofSign "="
      if ← look atConstant then pure (.other (front ++ (← constantArgument self)))
      else pure (.associated front (← self.type true))
    else if ← takeSign ":" then
      let bounds ← Phrase.row (fun s => atSign "," s || atSign ">" s) "+" (self.boundPhrase true)
      pure (.other (t.tokens ++ .ofSign ":" ++ bounds))
    else pure (.type t)

/-- Generic arguments in angle brackets. -/
def angle (self : Reader) : Parser Tokens Arguments := do
  let turbofish ← takeSign "::"
  sign "<"
  let (args, trailing) ← separated (atSign ">") (sign ",") (argument self)
  sign ">"
  pure (.angle turbofish args trailing)

/-- A segment of a path. -/
def segment (self : Reader) (inExpression : Bool) : Parser Tokens Segment := do
  if ← look (atWords bareSegments) then pure (.mk (← anyWord) .none)
  else
    let n ← if ← look (atWord "Self") then anyWord else name
    if ← look (atAngle inExpression) then pure (.mk n (← angle self)) else pure (.mk n .none)

/-- Segments with double colons between them. -/
def segments (self : Reader) (inExpression : Bool) : Parser Tokens (List Segment) := do
  let (ss, _) ← chained (fun _ => linkWhile atSegment "::") (segment self inExpression)
  pure ss

/-- A path, without argument types in parentheses. -/
def path (self : Reader) (inExpression : Bool) : Parser Tokens (Bool × List Segment) := do
  let leading ← takeSign "::"
  pure (leading, ← segments self inExpression)

/-- The parts of a path that starts with a type in angle brackets: the type, what it is seen as, and the rest. -/
def memberPath (self : Reader) (inExpression : Bool) :
    Parser Tokens (TypeExpr × Bool × List Segment × List Segment) := do
  sign "<"
  let t ← self.type true
  let (leading, base) ← if ← takeWord "as" then path self false else pure (false, [])
  sign ">"
  sign "::"
  let (rest, _) ← chained (fun _ => linkWhile (atSign "::") "::") (segment self inExpression)
  pure (t, leading, base, rest)

/-! ## Bounds -/

/-- A trait, without the parentheses around it: whether it is for constants, what stands before its path, and the
    path. -/
def traitBound (self : Reader) (constants : Bool) : Parser Tokens (Bool × Tokens × Bool × List Segment) := do
  let life ← Phrase.maybe (atWord "for") (binder self)
  let constant ← look (fun s => atGroup .bracket s || atWord "const" s)
  if constant && !constants then failure
  let const ← Phrase.first
    [(atGroup .bracket, Phrase.enclosed .bracket (Phrase.word "const")), (atWord "const", Phrase.word "const"),
      (fun _ => true, Phrase.nothing)]
  let mark ← Phrase.maybeSign "?"
  if !life.isEmpty && !mark.isEmpty then failure
  let (leading, ss) ← path self false
  let takes ← look fun s => takesInputs ss && atInputs s
  let ss ← if takes then pure (replaceLast (← inputs self) ss) else pure ss
  pure (constant, life ++ const ++ mark, leading, ss)

/-- A bound. -/
def bound (self : Reader) (captures constants : Bool) : Parser Tokens Bound := do
  if ← look atLifetime then pure (.lifetime (← lifetime))
  else if ← look (atWord "use") then
    if captures then pure (.capture (← capture)) else failure
  else
    let start ← look id
    let parenthesized ← look (atGroup .paren)
    let (constant, front, leading, ss) ←
      if parenthesized then inside .paren (traitBound self constants) else traitBound self constants
    if constant then pure (.constant (← since start)) else pure (.trait parenthesized front leading ss)

/-- What follows a bound: perhaps a plus sign, and perhaps another bound after it. -/
def boundLink (plus constants : Bool) : Parser Tokens Link := do
  if ← look (fun s => plus && atSign "+" s) then
    sign "+"
    if ← look (atBound constants) then pure .again else pure .trailing
  else pure .done

/-- Bounds with plus signs between them. -/
def boundChain (self : Reader) (plus captures constants : Bool) : Parser Tokens (List Bound × Bool) :=
  chained (fun _ => boundLink plus constants) (bound self captures constants)

/-- Whether a bound says more than a lifetime. -/
def Bound.isProper : Bound → Bool
  | .trait _ _ _ _ => true
  | .constant _ => true
  | _ => false

/-- The bounds that a type is known by; one of them has to be a trait. `special` says whether there may be bounds of the
    two special kinds. -/
def boundedType (self : Reader) (keyword : Option String) (plus special : Bool) : Parser Tokens TypeExpr := do
  let (bounds, trailing) ← boundChain self plus special special
  if bounds.any Bound.isProper then pure (.bounded keyword bounds trailing) else failure

/-! ## Types -/

/-- The words that may follow the parameters that a type is generic in, besides identifiers. -/
def afterBinder : List String := ["fn", "unsafe", "extern", "super", "self", "Self", "crate"]

/-- Whether a function type follows. -/
def atFunction : Tokens → Bool := atWords ["fn", "unsafe", "extern"]

/-- Whether a path follows. -/
def atPath (s : Tokens) : Bool := atPathWord s || atSign "::" s || atSign "<" s

/-- Whether the dots of further arguments follow, perhaps with a name. -/
def atDots (s : Tokens) : Bool :=
  atSign "..." s || ((atName s || atWord "_" s) && atSign ":" s.next && atSign "..." s.next.next)

/-- The dots of further arguments, after which only a comma may stand. -/
def dots : Phrase :=
  Phrase.all
    [Phrase.maybe (fun s => !atSign "..." s) (Phrase.all [Phrase.anyWord, Phrase.sign ":"]), Phrase.sign "...",
      Phrase.provided fun s => s.isEmpty || (atSign "," s && s.next.isEmpty)]

/-- An argument of a function type; `receiver` says that it may be `self`. -/
def functionInput (self : Reader) (receiver : Bool) : Phrase := do
  let front ← annotations self
  if ← look atDots then return front ++ (← dots)
  let start ← look id
  let isMut ← look fun s => receiver && atWord "mut" s && atWord "self" s.next
  if isMut then word "mut"
  let isSelf ← look fun s => receiver && atWord "self" s
  let named ← look fun s =>
    (atName s || atWord "_" s || isSelf) && atSign ":" s.next && !atSign "::" s.next
  let label ← if named then Phrase.all [Phrase.anyWord, Phrase.sign ":"] else Phrase.nothing
  if ← look fun s => receiver && !(named && isSelf) && atWord "mut" s && atWord "self" s.next then
    word "mut"
    word "self"
    pure (front ++ (← since start))
  else if isMut && !named then
    word "self"
    pure (front ++ (← since start))
  else
    let t ← self.typePhrase true
    if isMut then pure (front ++ (← since start)) else pure (front ++ label ++ t)

/-- The arguments of a function type. -/
def functionInputs (self : Reader) : Phrase :=
  Phrase.maybe (fun s => !s.isEmpty)
    (Phrase.all
      [functionInput self true,
        Phrase.maybe (fun s => !s.isEmpty) (Phrase.all [Phrase.sign ",", Phrase.commas (functionInput self false)])])

/-- A function type, after the parameters that it is generic in. -/
def functionType (self : Reader) (binder : Tokens) : Parser Tokens TypeExpr := do
  let front ← Phrase.all
    [Phrase.maybeWord "unsafe", convention, Phrase.word "fn", Phrase.enclosed .paren (functionInputs self)]
  let result ← result? self false
  pure (.other (binder ++ front ++ resultTokens result) (result.any TypeExpr.endsBare))

/-- A type that starts with a path: the path, an invocation, or the first of several bounds. -/
def pathType (self : Reader) (plus : Bool) (binder : Tokens) : Parser Tokens TypeExpr := do
  if ← look (atSign "<") then
    let (t, leading, base, rest) ← memberPath self false
    pure (.member t leading base rest)
  else
    let (leading, ss) ← path self false
    if ← look (fun s => atSign "!" s && !atSign "!=" s && ss.all (·.arguments matches .none)) then
      sign "!"
      pure (.other ((TypeExpr.path leading ss).tokens ++ .ofSign "!" ++ (← anyGroup)) false)
    else
      let first := Bound.trait false binder leading ss
      match ← boundLink plus false with
      | .done => if binder.isEmpty then pure (.path leading ss) else pure (.bounded none [first] false)
      | .trailing => pure (.bounded none [first] true)
      | .again =>
        let (more, trailing) ← boundChain self true false false
        pure (.bounded none (first :: more) trailing)

/-- What stands in the parentheses of a type: nothing, bounds, one type, or the elements of a tuple. -/
def parenContent (self : Reader) : Parser Tokens TypeExpr := do
  if ← look Tokens.isEmpty then pure (.tuple [] false)
  else if ← look atLifetime then pure (.paren (← boundedType self none true false))
  else if ← look (atSign "?") then
    let (_, front, leading, ss) ← traitBound self false
    pure (.bounded none [.trait true front leading ss] false)
  else
    let first ← self.type true
    if ← look (atSign ",") then
      sign ","
      let (more, trailing) ← separated Tokens.isEmpty (sign ",") (self.type true)
      pure (.tuple (first :: more) (trailing || more.isEmpty))
    else pure (.paren first)

/-- The bound that a type in parentheses is, if it is one. -/
def boundOf? : TypeExpr → Option Bound
  | .path leading ss => some (.trait true .nil leading ss)
  | .bounded none [.trait _ front leading ss] false => some (.trait true front leading ss)
  | .bounded none [b] false => some b
  | _ => none

/-- Further bounds, each after a plus sign. -/
def furtherBounds (self : Reader) : Parser Tokens (List Bound) :=
  many (fun s => !atSign "+" s) (do sign "+"; bound self false false)

/-- A type in parentheses, a tuple, or bounds of which the first is in parentheses. -/
def parenType (self : Reader) (plus : Bool) : Parser Tokens TypeExpr := do
  let t ← inside .paren (parenContent self)
  match t with
  | .bounded keyword bounds _ => pure (.bounded keyword (bounds ++ (← furtherBounds self)) false)
  | .paren inner =>
    match boundOf? inner, ← look (fun s => plus && atSign "+" s) with
    | some b, true => pure (.bounded none (b :: (← furtherBounds self)) false)
    | _, _ => pure t
  | _ => pure t

/-- A type after `dyn`; with a star it is none that is known. -/
def dynType (self : Reader) (plus : Bool) : Parser Tokens TypeExpr := do
  let start ← look id
  word "dyn"
  let star ← takeSign "*"
  let t ← boundedType self (some "dyn") plus false
  if star then pure (.other (← since start) false) else pure t

/-- What stands in the brackets of a type: the element, and the length of an array. -/
def bracketContent (self : Reader) : Parser Tokens TypeExpr := do
  let element ← self.type true
  if ← takeSign ";" then pure (.array element (← self.expressionPhrase true)) else pure (.slice element)

/-- A pointer. -/
def pointerType (self : Reader) : Parser Tokens TypeExpr := do
  let front ← Phrase.all
    [Phrase.sign "*", Phrase.first [(atWord "const", Phrase.anyWord), (atWord "mut", Phrase.anyWord)]]
  let t ← self.type false
  pure (.other (front ++ t.tokens) t.endsBare)

/-- A built-in construct: its name after a number sign, and a group in parentheses. -/
def builtin : Phrase :=
  Phrase.all [Phrase.word "builtin", Phrase.sign "#", Phrase.name, Phrase.provided (atGroup .paren), anyGroup]

/-- Whether a built-in construct follows. -/
def atBuiltin (s : Tokens) : Bool := atWord "builtin" s && atSign "#" s.next

/-- A reference. -/
def referenceType (self : Reader) : Parser Tokens TypeExpr := do
  sign "&"
  let life ← optional lifetime
  let mutable ← takeWord "mut"
  pure (.reference life mutable (← self.type false))

/-- A type, after the parameters that it is generic in; `start` are the tokens from those on. -/
def typeAfter (self : Reader) (plus : Bool) (start binder : Tokens) : Parser Tokens TypeExpr := do
  if ← look (atGroup .paren) then parenType self plus
  else if ← look atFunction then functionType self binder
  else if ← look atBuiltin then
    let _ ← builtin
    pure (.other (← since start) false)
  else if ← look atPath then pathType self plus binder
  else if ← look (atWord "dyn") then dynType self plus
  else if ← look (atGroup .bracket) then inside .bracket (bracketContent self)
  else if ← look (atSign "*") then pointerType self
  else if ← look (atSign "&") then referenceType self
  else if ← look (atSign "!") then pure (.other (← Phrase.sign "!") false)
  else if ← takeWord "impl" then boundedType self (some "impl") plus true
  else if ← look (atWord "_") then pure (.other (← Phrase.anyWord) false)
  else if ← look atLifetime then boundedType self none true false
  else failure

/-- The rule of types. -/
def typeRule (self : Reader) (plus : Bool) : Parser Tokens TypeExpr := do
  let start ← look id
  if ← look (atWord "for") then
    let front ← binder self
    require fun s => atName s || atWords afterBinder s
    typeAfter self plus start front
  else typeAfter self plus start .nil

end QueryContract.Source
