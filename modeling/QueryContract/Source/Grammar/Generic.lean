import QueryContract.Source.Grammar.Form

/-!
# `Source.Grammar.Generic` — generic parameters and conditions

What makes a declaration generic: parameters in angle brackets after its name, and the conditions on them after the
keyword `where`. A part without content leaves no trace in how a declaration is written: empty angle brackets, the
colon before no bounds, `where` without a condition.

* `parameter`, `generics` — generic parameters, the lifetimes written first;
* `binder` — the parameters that a type, a bound or a closure brings along;
* `conditions` — the conditions of a declaration;
* `atParameters` — tells generic parameters from a type in angle brackets.
-/

namespace QueryContract.Source

open QueryContract.Parser

/-! ## Blocks and constants -/

/-- A block. -/
def block (self : Reader) : Phrase := Phrase.enclosed .brace self.statements

/-- A block that may start with annotations of its own. -/
def annotatedBlock (self : Reader) : Phrase :=
  Phrase.enclosed .brace (Phrase.all [innerAnnotations self, self.statements])

/-- A constant argument: a literal or a block. -/
def constantArgument (self : Reader) : Phrase :=
  Phrase.first [(atLiteral, literal), (atGroup .brace, annotatedBlock self)]

/-- Whether a literal or a block follows. -/
def atConstant (s : Tokens) : Bool := atLiteral s || atGroup .brace s

/-- Takes the operator if it is there. -/
def takeSign (s : String) : Parser Tokens Bool := accepts (sign s)

/-- Takes the keyword if it is there. -/
def takeWord (w : String) : Parser Tokens Bool := accepts (word w)

/-! ## Parameters -/

/-- Whether the bounds of a parameter end here. -/
def atParameterStop (s : Tokens) : Bool := s.isEmpty || atSign "," s || atSign ">" s

/-- Bounds after a colon, both of which may be absent; without bounds the colon leaves no trace. -/
def boundsAfterColon (bounds : Phrase) : Phrase := do
  if ← takeSign ":" then
    let written ← bounds
    pure (if written.isEmpty then .nil else .ofSign ":" ++ written)
  else pure .nil

/-- A default after an equals sign, both of which may be absent. -/
def defaultAfter (value : Phrase) : Phrase :=
  Phrase.maybe (atSign "=") (Phrase.all [Phrase.sign "=", value])

/-- What a generic parameter stands for. -/
inductive ParameterSort where
  | lifetime
  | type (name : String)
  | constant
deriving DecidableEq

/-- A generic parameter, after its annotations: a lifetime, a type or a constant. -/
def parameterAfter (self : Reader) : Parser Tokens (ParameterSort × Tokens) := do
  if ← look atLifetime then
    pure (.lifetime, ← Phrase.all
      [Phrase.lifetime, boundsAfterColon (Phrase.row atParameterStop "+" Phrase.lifetime)])
  else if ← look atName then
    let n ← name
    pure (.type n, .ofWord n ++ (← Phrase.all
      [boundsAfterColon (Phrase.row (fun s => atParameterStop s || atSign "=" s) "+" (self.boundPhrase true)),
        defaultAfter (self.typePhrase true)]))
  else
    pure (.constant, ← Phrase.all
      [Phrase.word "const", Phrase.name, Phrase.sign ":", self.typePhrase true,
        defaultAfter (Phrase.first [(atConstant, constantArgument self), (atName, Phrase.name)])])

/-- A generic parameter of a declaration, whose name may be the low line. -/
def parameter (self : Reader) : Parser Tokens (ParameterSort × Tokens) := do
  let front ← annotations self
  if ← takeWord "_" then pure (.type "_", front ++ .ofWord "_")
  else
    let (sort, written) ← parameterAfter self
    pure (sort, front ++ written)

/-- The generic parameters of a declaration: the names of the types among them, whether there are brackets at all, and
    how they are written. -/
structure Generics where
  types : List String
  isPresent : Bool
  written : Tokens

/-- No generic parameters. -/
def Generics.none : Generics := ⟨[], false, .nil⟩

/-- The name of the type that a parameter is, if it is one. -/
def ParameterSort.typeName? : ParameterSort → Option String
  | type n => some n
  | _ => none

/-- Generic parameters in angle brackets. -/
def presentGenerics (self : Reader) : Parser Tokens Generics := do
  sign "<"
  let (ps, trailing) ← separated (atSign ">") (sign ",") (parameter self)
  sign ">"
  let written := if ps.isEmpty then .nil else
    .ofSign "<" ++ writeArguments trailing (ps.map fun (sort, t) => (sort == .lifetime, t)) ++ .ofSign ">"
  pure ⟨ps.filterMap fun (sort, _) => sort.typeName?, true, written⟩

/-- The generic parameters after a name, which may be absent. -/
def generics (self : Reader) : Parser Tokens Generics := do
  if ← look (atSign "<") then presentGenerics self else pure .none

/-- The parameters that a type, a bound or a closure is generic in, in the order of the source. -/
def binder (self : Reader) : Phrase :=
  Phrase.all [Phrase.word "for", Phrase.sign "<",
    Phrase.listed (atSign ">") "," (do
      let front ← annotations self
      let (_, written) ← parameterAfter self
      pure (front ++ written)),
    Phrase.sign ">"]

/-- Whether generic parameters begin here, and not a type in angle brackets. -/
def atParameters (s : Tokens) : Bool :=
  let second := s.next
  let third := s.next.next
  atSign "<" s &&
    (atSign ">" second || atSign "#" second || atWord "const" second ||
      ((atName second || atLifetime second) &&
        (atSign ">" third || atSign "," third || (atSign ":" third && !atSign "::" third) || atSign "=" third)))

/-! ## Conditions -/

/-- Whether the conditions of a declaration, or the bounds of one, end here. -/
def atWhereStop (s : Tokens) : Bool :=
  s.isEmpty || atGroup .brace s || atSign "," s || atSign ";" s || (atSign ":" s && !atSign "::" s) || atSign "=" s

/-- A condition of a declaration: the bounds of a lifetime or of a type. -/
def condition (self : Reader) : Phrase :=
  Phrase.first
    [(fun s => atLifetime s && atSign ":" s.next, Phrase.all
        [Phrase.lifetime, Phrase.sign ":",
          Phrase.row (fun s => atWhereStop s || atSign ":" s) "+" Phrase.lifetime]),
      (fun _ => true, Phrase.all
        [Phrase.maybe (atWord "for") (binder self), self.typePhrase true, Phrase.sign ":",
          Phrase.row atWhereStop "+" (self.boundPhrase true)])]

/-- The conditions of a declaration, which may be absent. -/
def conditions (self : Reader) : Phrase := do
  if ← takeWord "where" then
    require (!atParameters ·)
    let written ← Phrase.row atWhereStop "," (condition self)
    pure (if written.isEmpty then .nil else .ofWord "where" ++ written)
  else pure .nil

end QueryContract.Source
