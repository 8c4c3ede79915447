import QueryContract.Source.Token

/-!
# `Source.TypeExpr` — types as they are written

The form of a type in Rust source, as far as it decides what the type is read as; parts that decide nothing are kept
as the tokens they are written with.

* `TypeExpr`, `Segment`, `Arguments`, `Argument`, `Bound` — the forms;
* `TypeExpr.endsBare` — whether generic arguments could follow a type;
* `TypeExpr.tokens` — how a type is written; lifetimes stand before all other arguments.
-/

namespace QueryContract.Source

mutual

/-- A type. There is no form for a type in a group without delimiters: only an expanded macro holds such groups, no text
    is read with one, and one would be read as the type within it, which is what a pair of parentheses is read as. -/
inductive TypeExpr where
  /-- A path; `leading` says that it starts with a double colon. -/
  | path (leading : Bool) (segments : List Segment)
  /-- A member of a type: `<self as base>::rest`, or `<self>::rest` if `base` is empty. -/
  | member (self : TypeExpr) (leading : Bool) (base rest : List Segment)
  /-- A reference. -/
  | reference (life : Option String) (mutable : Bool) (target : TypeExpr)
  /-- A type in parentheses. -/
  | paren (inner : TypeExpr)
  /-- A slice. -/
  | slice (element : TypeExpr)
  /-- An array; its length is an expression. -/
  | array (element : TypeExpr) (length : Tokens)
  /-- A tuple; `trailing` says that a comma follows its last element. -/
  | tuple (elements : List TypeExpr) (trailing : Bool)
  /-- A type known by its bounds, after the keyword `impl` or `dyn` or without any. -/
  | bounded (keyword : Option String) (bounds : List Bound) (trailing : Bool)
  /-- A function, a pointer, or any other type; `bare` says that it ends in a path without arguments. -/
  | other (written : Tokens) (bare : Bool)

/-- A segment of a path. -/
inductive Segment where
  | mk (name : String) (arguments : Arguments)

/-- What follows the name of a segment. -/
inductive Arguments where
  | none
  /-- Arguments in angle brackets; `turbofish` says that a double colon stands before them. -/
  | angle (turbofish : Bool) (args : List Argument) (trailing : Bool)
  /-- Argument types in parentheses, perhaps with a result; `bare` says that it ends in a path without arguments. -/
  | parenthesized (written : Tokens) (bare : Bool)

/-- A generic argument. -/
inductive Argument where
  | lifetime (name : String)
  | type (t : TypeExpr)
  /-- An associated type; `front` are the tokens up to its equals sign. -/
  | associated (front : Tokens) (t : TypeExpr)
  /-- A constant, or a condition on an associated type. -/
  | other (written : Tokens)

/-- A bound. -/
inductive Bound where
  | lifetime (name : String)
  /-- A trait, perhaps in parentheses; `front` are the tokens before its path. -/
  | trait (parenthesized : Bool) (front : Tokens) (leading : Bool) (segments : List Segment)
  /-- The list of generic parameters that a type uses. -/
  | capture (written : Tokens)
  /-- A trait that has to be implemented for constants. -/
  | constant (written : Tokens)

end

instance : Inhabited TypeExpr := ⟨.other .nil false⟩

namespace Segment

/-- The name of a segment. -/
def name : Segment → String
  | mk n _ => n

/-- What follows the name of a segment. -/
def arguments : Segment → Arguments
  | mk _ a => a

end Segment

namespace Arguments

/-- Whether there are no arguments. -/
def isEmpty : Arguments → Bool
  | none => true
  | angle _ args _ => args.isEmpty
  | parenthesized _ _ => false

/-- Whether generic arguments could follow. -/
def endsBare : Arguments → Bool
  | none => true
  | angle _ _ _ => false
  | parenthesized _ bare => bare

end Arguments

/-- Whether generic arguments could follow a path. -/
def endsBare (segments : List Segment) : Bool := segments.getLast?.any (·.arguments.endsBare)

/-- Whether generic arguments could follow a bound; parentheses around it are not counted. -/
def Bound.endsBare : Bound → Bool
  | trait _ _ _ segments => Source.endsBare segments
  | _ => false

/-- Whether generic arguments could follow a type, so that `<` after it would be taken for their beginning. -/
def TypeExpr.endsBare : TypeExpr → Bool
  | path _ segments => Source.endsBare segments
  | member _ _ _ rest => Source.endsBare rest
  | reference _ _ target => target.endsBare
  | bounded _ bounds _ => bounds.getLast?.any Bound.endsBare
  | other _ bare => bare
  | _ => false

/-! ## Writing -/

/-- Items, each but the last with a comma after it; a comma stands after the last if `trailing`. -/
def withCommas (trailing : Bool) : List (Bool × Tokens) → List (Bool × Tokens × Bool)
  | [] => []
  | [(isLife, t)] => [(isLife, t, trailing)]
  | (isLife, t) :: items => (isLife, t, true) :: withCommas trailing items

/-- Items one after the other, with a comma between two that have none. -/
def punctuated (complete : Bool) : List (Tokens × Bool) → Tokens
  | [] => .nil
  | (t, hasComma) :: items =>
    (if complete then .nil else .ofSign ",") ++ t ++ (if hasComma then .ofSign "," else .nil) ++
      punctuated hasComma items

/-- Generic arguments, the lifetimes first. -/
def writeArguments (trailing : Bool) (args : List (Bool × Tokens)) : Tokens :=
  let items := withCommas trailing args
  punctuated true ((items.filter (·.1)).map (·.2) ++ (items.filter (!·.1)).map (·.2))

/-- A double colon, if asked for. -/
def colons (b : Bool) : Tokens := if b then .ofSign "::" else .nil

mutual

/-- The tokens of a type. -/
def TypeExpr.tokens : TypeExpr → Tokens
  | .path leading segments => colons leading ++ .separated (.ofSign "::") false (segmentsTokens segments)
  | .member self leading base rest =>
    .ofSign "<" ++ self.tokens ++
      (match base with
        | [] => .nil
        | _ :: _ =>
          .ofWord "as" ++ colons leading ++ .separated (.ofSign "::") false (segmentsTokens base)) ++
      .ofSign ">" ++ .ofSign "::" ++ .separated (.ofSign "::") false (segmentsTokens rest)
  | .reference life mutable target =>
    .ofSign "&" ++ (life.elim .nil .ofLifetime) ++ (if mutable then .ofWord "mut" else .nil) ++ target.tokens
  | .paren inner => .enclosed .paren inner.tokens
  | .slice element => .enclosed .bracket element.tokens
  | .array element length => .enclosed .bracket (element.tokens ++ .ofSign ";" ++ length)
  | .tuple elements trailing => .enclosed .paren (.separated (.ofSign ",") trailing (typesTokens elements))
  | .bounded keyword bounds trailing =>
    (keyword.elim .nil .ofWord) ++ .separated (.ofSign "+") trailing (boundsTokens bounds)
  | .other written _ => written

/-- The tokens of each of several types. -/
def typesTokens : List TypeExpr → List Tokens
  | [] => []
  | t :: ts => t.tokens :: typesTokens ts

/-- The tokens of a segment. -/
def Segment.tokens : Segment → Tokens
  | .mk name arguments => .ofWord name ++ arguments.tokens

/-- The tokens of each of several segments. -/
def segmentsTokens : List Segment → List Tokens
  | [] => []
  | s :: ss => s.tokens :: segmentsTokens ss

/-- The tokens of what follows the name of a segment. -/
def Arguments.tokens : Arguments → Tokens
  | .none => .nil
  | .angle turbofish args trailing =>
    colons turbofish ++ .ofSign "<" ++ writeArguments trailing (argumentsTokens args) ++ .ofSign ">"
  | .parenthesized written _ => written

/-- The tokens of each of several arguments, and whether it is a lifetime. -/
def argumentsTokens : List Argument → List (Bool × Tokens)
  | [] => []
  | a :: as => a.tokens :: argumentsTokens as

/-- The tokens of a generic argument, and whether it is a lifetime. -/
def Argument.tokens : Argument → Bool × Tokens
  | .lifetime name => (true, .ofLifetime name)
  | .type t => (false, t.tokens)
  | .associated front t => (false, front ++ t.tokens)
  | .other written => (false, written)

/-- The tokens of a bound. -/
def Bound.tokens : Bound → Tokens
  | .lifetime name => .ofLifetime name
  | .trait parenthesized front leading segments =>
    let inner := front ++ colons leading ++ .separated (.ofSign "::") false (segmentsTokens segments)
    if parenthesized then .enclosed .paren inner else inner
  | .capture written => written
  | .constant written => written

/-- The tokens of each of several bounds. -/
def boundsTokens : List Bound → List Tokens
  | [] => []
  | b :: bs => b.tokens :: boundsTokens bs

end

/-- The text of a type, written token by token. -/
def TypeExpr.text (t : TypeExpr) : String := t.tokens.text

end QueryContract.Source
