import QueryContract.Source.Grammar.Statement
import QueryContract.Source.Lexeme

/-!
# `Source.Grammar` — the grammar as a whole

* `rule` — the rule of each form; `reader` — the forms that follow the rules (`reader_eq`);
* `parse?` — a whole text of a form;
* `typeOf?`, `methodOf?`, `traitOf?` — types, methods and traits.
-/

namespace QueryContract.Source

open QueryContract.Parser

/-- The rule of each form. -/
def rule (self : Reader) : (f : Form) → Parser Tokens f.Out
  | .type plus => typeRule self plus
  | .bound captures constants => bound self captures constants
  | .pattern => patternRule self
  | .expression braces => expressionRule self braces
  | .unary braces => unaryRule self braces
  | .operand braces level => operandRule self braces level
  | .operandFrom braces level left => operandFromRule self braces level left
  | .expressionFrom braces base left => expressionFromRule self braces base left
  | .leading => leadingRule self
  | .conditional => conditionalRule self
  | .statements => statementsRule self
  | .item => itemRule self
  | .namedFields => namedFieldsRule self
  | .useTree roots => useTreeRule self roots

/-- The forms that follow the rules. -/
def reader : Reader := fun f => fix Form.Out rule f

/-- A form is read by its rule, the forms in it on fewer tokens. -/
theorem reader_eq (f : Form) (s : Tokens) :
    reader f s = rule (fun g r => if r.size < s.size then reader g r else none) f s :=
  fix_eq Form.Out rule f s

/-- The whole text as the given form. -/
def parse? {α : Type} (p : Parser Tokens α) (text : List Char) : Option α :=
  match Tokens.ofText? text with
  | some tokens =>
    match p tokens with
    | some (a, .nil) => some a
    | _ => none
  | none => none

/-- The type that a text is. -/
def typeOf? (text : List Char) : Option TypeExpr := parse? (typeRule reader true) text

/-- The method of a trait that a text is. -/
def methodOf? (text : List Char) : Option Signature := parse? (methodDeclaration reader) text

/-- The trait that a text is. -/
def traitOf? (text : List Char) : Option TraitExpr := parse? (traitDeclaration reader) text

end QueryContract.Source
