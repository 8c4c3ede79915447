import QueryContract.Source.TypeExpr

/-!
# `Source.Expression` — expressions and patterns as they are written

An expression is written the way it stands in the source but for the parentheses around some of its parts, which keep
it from being read as another one:

* a cast that `<` or `<<` follows, if the type of the cast could take generic arguments;
* a range that carries annotations, because without them they would belong to its first operand;
* a block at the start of what a range ends with, where a block can follow the range itself.

`Level` orders the operators, `Expression` and `Pattern` are the forms, `tokens` writes them.
-/

namespace QueryContract.Source

/-! ## Levels -/

/-- How tightly an operator binds. -/
inductive Level where
  | lowest
  | assign
  | range
  | or
  | and
  | binding
  | compare
  | bitOr
  | bitXor
  | bitAnd
  | shift
  | sum
  | product
  | cast
deriving DecidableEq

/-- The place of a level in the order of levels. -/
def Level.rank : Level → Nat
  | lowest => 0
  | assign => 1
  | range => 2
  | or => 3
  | and => 4
  | binding => 5
  | compare => 6
  | bitOr => 7
  | bitXor => 8
  | bitAnd => 9
  | shift => 10
  | sum => 11
  | product => 12
  | cast => 13

/-! ## Expressions -/

/-- What of an operand decides about the tokens around it. -/
inductive OperandKind where
  | simple
  /-- An expression with a block of its own, which ends a statement. -/
  | blockLike
  /-- An invocation with braces. -/
  | bracedCall
  /-- An expression that is kept as it stands in the source and carries no annotations. -/
  | verbatim
deriving DecidableEq

/-- An expression; `labelled` says that it starts with a label, `front` are the annotations of an operand. -/
inductive Expression where
  /-- An expression that no operator with two operands makes up. -/
  | operand (kind : OperandKind) (labelled : Bool) (front written : Tokens)
  /-- A range without parentheses. -/
  | range (labelled : Bool) (front written : Tokens)
  /-- Two operands and the operator between them. -/
  | joined (left : Expression) (operator : String) (level : Level) (right : Expression)
  /-- A value seen as of another type. -/
  | cast (value : Expression) (target : TypeExpr)

namespace Expression

/-- An operand that decides nothing. -/
def simple (written : Tokens) : Expression := operand .simple false .nil written

/-- Whether it is a range. -/
def isRange : Expression → Bool
  | range _ _ _ => true
  | _ => false

/-- Whether it is a comparison. -/
def isComparison : Expression → Bool
  | joined _ _ level _ => level == .compare
  | _ => false

/-- Whether it is an operand of the given kind. -/
def isKind (kind : OperandKind) : Expression → Bool
  | operand k _ _ _ => k == kind
  | _ => false

/-- Whether it starts with a label. -/
def isLabelled : Expression → Bool
  | operand _ labelled _ _ => labelled
  | range labelled _ _ => labelled
  | joined left _ _ _ => left.isLabelled
  | cast value _ => value.isLabelled

/-- Annotations before an expression belong to its first operand; those before one that is kept as it stands are
    lost. -/
def annotated (more : Tokens) : Expression → Expression
  | operand kind labelled front written =>
    if kind = .verbatim then operand kind labelled front written else operand kind labelled (more ++ front) written
  | range labelled front written => range labelled (more ++ front) written
  | joined left operator level right => joined (left.annotated more) operator level right
  | cast value target => cast (value.annotated more) target

/-- Whether an operator could be taken for the beginning of generic arguments. -/
def opensGenerics (operator : String) : Bool := operator == "<" || operator == "<<"

/-- The tokens of an expression; `guarded` says that an operator follows that could be taken for the beginning of
    generic arguments. -/
def tokensBefore (guarded : Bool) : Expression → Tokens
  | operand _ _ front written => front ++ written
  | range _ front written => front ++ (if front.isEmpty then written else .enclosed .paren written)
  | joined left operator _ right =>
    left.tokensBefore (opensGenerics operator) ++ .ofSign operator ++ right.tokensBefore guarded
  | cast value target =>
    let written := value.tokensBefore false ++ .ofWord "as" ++ target.tokens
    if guarded && target.endsBare then .enclosed .paren written else written

/-- The tokens of an expression. -/
def tokens (e : Expression) : Tokens := e.tokensBefore false

/-- The tokens of an expression in parentheses. -/
def enclosedTokens (e : Expression) : Tokens := .enclosed .paren e.tokens

/-- The tokens of an expression, with parentheses around a block at its start. -/
def tokensAfterRange (e : Expression) : Tokens :=
  match e.tokens with
  | .group .brace body rest => .enclosed .paren (.enclosed .brace body) ++ rest
  | written => written

end Expression

/-! ## Patterns -/

/-- What of a pattern decides about its use. -/
inductive PatternKind where
  /-- A name, perhaps by reference or mutable, perhaps with a pattern of its own. -/
  | name (n : String)
  /-- The low line. -/
  | wildcard
  /-- A range; one that is open lacks an end. -/
  | range (isOpen : Bool)
  /-- A block of constants; `bare` is the block without annotations of its own. -/
  | constant (bare : Tokens)
  /-- A pattern that is kept as it stands in the source and carries no annotations. -/
  | verbatim
  | other
deriving DecidableEq

/-- A pattern. -/
structure Pattern where
  kind : PatternKind
  written : Tokens

/-- The tokens of a pattern that carries annotations, which may be none. -/
def Pattern.annotatedTokens (front : Tokens) (p : Pattern) : Tokens :=
  match p.kind with
  | .range _ => front ++ (if front.isEmpty then p.written else .enclosed .paren p.written)
  | .constant bare => front ++ bare
  | .verbatim => p.written
  | _ => front ++ p.written

end QueryContract.Source
