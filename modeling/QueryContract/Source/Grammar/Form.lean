import QueryContract.Source.Expression
import QueryContract.Source.Phrase

/-!
# `Source.Grammar.Form` — the recursive forms of the grammar

Types hold expressions, expressions hold statements, statements hold types: the forms that occur inside each other are
named here, with what reading each of them gives. A rule reaches the others through a `Reader` and only after it has
taken a token itself; everything that is needed in the same place is a function.

* `Form`, `Form.Out`, `Reader`;
* `Wording` — how an item is written: in its own form, or as it stands in the source;
* `simplePath`, `annotations`, `visibility` — what the declarations have in common.
-/

namespace QueryContract.Source

/-! ## Forms -/

/-- The forms that occur inside others. `plus` says whether a type may go on with further bounds, `braces` whether an
    expression may go on with a brace; `captures` and `constants` say which special bounds are allowed; `roots` says
    whether imports in braces may start with a double colon. -/
inductive Form where
  | type (plus : Bool)
  | bound (captures constants : Bool)
  | pattern
  | expression (braces : Bool)
  | unary (braces : Bool)
  /-- The right operand of an operator of the given level. -/
  | operand (braces : Bool) (level : Level)
  /-- A right operand that has been read in part. -/
  | operandFrom (braces : Bool) (level : Level) (left : Expression)
  /-- An expression of which a left operand has been read. -/
  | expressionFrom (braces : Bool) (base : Level) (left : Expression)
  /-- An expression that ends after a block. -/
  | leading
  | conditional
  | statements
  | item
  | namedFields
  | useTree (roots : Bool)

/-- What reading a form gives. -/
def Form.Out : Form → Type
  | type _ => TypeExpr
  | bound _ _ => Bound
  | pattern => Pattern
  | expression _ => Expression
  | unary _ => Expression
  | operand _ _ => Expression
  | operandFrom _ _ _ => Expression
  | expressionFrom _ _ _ => Expression
  | leading => Expression
  | conditional => Tokens
  | statements => Tokens
  | item => Tokens
  | namedFields => Tokens
  | useTree _ => Bool × Tokens

/-- Reads a form. -/
abbrev Reader := (f : Form) → Parser Tokens f.Out

namespace Reader

/-- A type. -/
def type (self : Reader) (plus : Bool) : Parser Tokens TypeExpr := self (.type plus)

/-- A type as it is written. -/
def typePhrase (self : Reader) (plus : Bool) : Phrase := do pure (← self.type plus).tokens

/-- A bound as it is written; `constants` says whether it may be for constants. -/
def boundPhrase (self : Reader) (constants : Bool) : Phrase := do
  let b : Bound ← self (.bound false constants)
  pure b.tokens

/-- A pattern. -/
def pattern (self : Reader) : Parser Tokens Pattern := self .pattern

/-- An expression. -/
def expression (self : Reader) (braces : Bool) : Parser Tokens Expression := self (.expression braces)

/-- An expression as it is written. -/
def expressionPhrase (self : Reader) (braces : Bool) : Phrase := do pure (← self.expression braces).tokens

/-- The statements of a block. -/
def statements (self : Reader) : Phrase := self .statements

end Reader

/-! ## Wordings -/

/-- How a part of a source text is written: in its own form, or, without one, as it stands in the source. -/
abbrev Wording := Option Tokens

/-- A part that is always written in its own form. -/
def formed (p : Phrase) : Parser Tokens Wording := do pure (some (← p))

/-- A part that is always written as it stands. -/
def kept {α : Type} (p : Parser Tokens α) : Parser Tokens Wording := do
  let _ ← p
  pure none

/-- A part after what stands before it: the tokens that it starts with in the source, and their own form. -/
def worded (start front : Tokens) (p : Parser Tokens Wording) : Phrase := do
  match ← p with
  | some written => pure (front ++ written)
  | none => since start

/-! ## Paths without arguments -/

/-- The keywords that a path may consist of. -/
def pathWords : List String := ["super", "self", "Self", "crate"]

/-- Whether a segment of a path without arguments follows. -/
def atPathWord (s : Tokens) : Bool := atName s || atWords pathWords s

/-- A segment of a path without arguments. -/
def pathWord : Parser Tokens String := do
  Parser.require atPathWord
  anyWord

/-- The segments of a path without arguments, with double colons between them. -/
def pathSegments : Phrase := do
  let (names, _) ← Parser.chained
    (fun _ => do if ← Parser.look (atSign "::") then sign "::"; pure .again else pure .done) pathWord
  pure (.separated (.ofSign "::") false (names.map .ofWord))

/-- A path without arguments. -/
def simplePath : Phrase := Phrase.all [Phrase.maybeSign "::", pathSegments]

/-! ## Annotations -/

/-- What an annotation says: a path, perhaps with a group or with a value. -/
def annotationContent (self : Reader) : Phrase :=
  Phrase.all
    [Phrase.first [(atWord "unsafe", Phrase.word "unsafe"), (fun _ => true, simplePath)],
      Phrase.first
        [(atAnyGroup, anyGroup),
          (atSign "=", Phrase.all
            [Phrase.sign "=", Phrase.provided (fun s => !(atSign "#" s && atGroup .bracket s.next)),
              self.expressionPhrase true]),
          (fun _ => true, Phrase.nothing)]]

/-- The annotations before a thing. -/
def annotations (self : Reader) : Phrase :=
  Phrase.several (fun s => !atSign "#" s)
    (Phrase.all [Phrase.sign "#", Phrase.enclosed .bracket (annotationContent self)])

theorem annotations_none {self : Reader} {s : Tokens} (h : atSign "#" s = false) : annotations self s = some (.nil, s) := by
  have hmany : Parser.many (fun s => !atSign "#" s)
      (Phrase.all [Phrase.sign "#", Phrase.enclosed .bracket (annotationContent self)]) s = some ([], s) :=
    Parser.many_stop (by simp [h])
  rw [annotations, Phrase.several, Parser.bind_of_eq hmany]
  rfl

/-- The annotations at the start of the inside of a thing. -/
def innerAnnotations (self : Reader) : Phrase :=
  Phrase.several (fun s => !(atSign "#" s && atSign "!" s.next))
    (Phrase.all [Phrase.sign "#", Phrase.sign "!", Phrase.enclosed .bracket (annotationContent self)])

theorem innerAnnotations_none {self : Reader} {s : Tokens} (h : (atSign "#" s && atSign "!" s.next) = false) :
    innerAnnotations self s = some (.nil, s) := by
  have hmany : Parser.many (fun s => !(atSign "#" s && atSign "!" s.next))
      (Phrase.all [Phrase.sign "#", Phrase.sign "!", Phrase.enclosed .bracket (annotationContent self)]) s =
        some ([], s) := Parser.many_stop (by rw [h]; rfl)
  rw [innerAnnotations, Phrase.several, Parser.bind_of_eq hmany]
  rfl

/-! ## Visibility -/

/-- What a thing is visible in, after `pub`, within the parentheses. -/
def visibilityScope : Phrase :=
  Phrase.first
    [(atWords ["crate", "self", "super"], Phrase.all [Phrase.anyWord, Phrase.provided Tokens.isEmpty]),
      (atWord "in", Phrase.all [Phrase.word "in", simplePath])]

/-- Whether a group in parentheses limits a visibility. -/
def atVisibilityScope : Tokens → Bool
  | .group .paren body _ =>
    atWord "in" body || (atWords ["crate", "self", "super"] body && body.next.isEmpty)
  | _ => false

/-- The visibility of a thing, which may be absent. -/
def visibility : Phrase :=
  Phrase.maybe (atWord "pub")
    (Phrase.all [Phrase.word "pub", Phrase.maybe atVisibilityScope (Phrase.enclosed .paren visibilityScope)])

end QueryContract.Source
