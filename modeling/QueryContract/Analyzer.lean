import QueryContract.Rules
import QueryContract.Trace

/-!
# `Analyzer` — describing query methods

An analyzer is a vocabulary with a classifier of parameters. It describes a method in a fixed order, and the first
failure decides: roles of the parameters, meaning of the result type, rules between the two.

* `Analyzer.build`    — the steps, in their order;
* `Analyzer.trace`    — the description together with its span;
* `Analyzer.describe` — the description, or why the method is rejected;
* `Blueprint`         — an analyzer under construction.
-/

namespace QueryContract

/-- What methods are described with. -/
structure Analyzer where
  vocabulary : Vocabulary
  classifier : Classifier

namespace Analyzer

/-- The parameters of a method with their types resolved. -/
def resolvedParameters (repository : Repository) (m : Method) : List DeclaredParameter :=
  m.parameters.map fun p => { p with type := repository.resolveType p.type }

variable (a : Analyzer) (repository : Repository) (m : Method)

/-- The classified parameters of a method. -/
def parameters : Except Malformed Parameters :=
  Parameters.classify a.classifier (resolvedParameters repository m)

/-- The meaning of a method's result type. -/
def resolution : Except Malformed Resolution :=
  a.vocabulary.resolve (repository.resultType m) repository.domain (repository.elementType m)

/-- The steps of a description within a span. Each milestone is emitted when it is reached, and the first failure ends
    the steps. -/
def build (span : Nat) (t : Trace) : Except Rejection Description × Trace :=
  match a.parameters repository m with
  | .error reason => (.error ⟨m, .malformed reason⟩, t)
  | .ok parameters =>
    let t := t.emit (.reach span (.classified parameters))
    match a.resolution repository m with
    | .error reason => (.error ⟨m, .malformed reason⟩, t)
    | .ok resolution =>
      let t := t.emit (.reach span (.shaped resolution.result))
      match Rules.violation? parameters resolution.shape with
      | some violation => (.error ⟨m, violation⟩, t)
      | none => (.ok ⟨m, repository, a.vocabulary, parameters, resolution⟩, t)

/-- The description of a method in a span of its own, and the trace with the events of the span. -/
def trace (t : Trace) : Except Rejection Description × Trace :=
  let span := t.nextSpan
  let (result, after) := a.build repository m span (t.takeSpan.emit (.start span m))
  (result, after.emit (.finish span m (.of result)))

/-- The description of a method, or the first reason to reject it. What is emitted on the way is dropped. -/
def describe : Except Rejection Description := (a.trace repository m .empty).1

/-- The analyzer with the built-in vocabulary, which also decides the roles. -/
def builtin : Analyzer := ⟨.builtin, .ofHierarchy .builtin⟩

end Analyzer

/-! ## Construction -/

/-- An analyzer under construction; without a classifier of its own the final hierarchy will decide the roles. -/
structure Blueprint where
  vocabulary : Vocabulary
  classifier : Option Classifier

namespace Blueprint

/-- The built-in vocabulary, and no classifier. -/
def builtin : Blueprint := ⟨.builtin, none⟩

/-- Both parts of the vocabulary replaced. -/
def withVocabulary (b : Blueprint) (v : Vocabulary) : Blueprint := { b with vocabulary := v }

/-- The wrappers replaced. -/
def withWrappers (b : Blueprint) (t : WrapperTable) : Blueprint :=
  { b with vocabulary := { b.vocabulary with wrappers := t } }

/-- One more wrapper. -/
def withWrapper (b : Blueprint) (name : String) (w : Wrapper) : Blueprint :=
  b.withWrappers (b.vocabulary.wrappers.register name w)

/-- The declared subtypes replaced. -/
def withHierarchy (b : Blueprint) (h : Hierarchy) : Blueprint :=
  { b with vocabulary := { b.vocabulary with hierarchy := h } }

/-- One more declared subtype. -/
def withSubtype (b : Blueprint) (sub sup : String) : Blueprint :=
  b.withHierarchy (b.vocabulary.hierarchy.declare sub sup)

/-- A classifier of its own. -/
def withClassifier (b : Blueprint) (c : Classifier) : Blueprint := { b with classifier := some c }

/-- The analyzer. -/
def build (b : Blueprint) : Analyzer :=
  ⟨b.vocabulary, b.classifier.getD (.ofHierarchy b.vocabulary.hierarchy)⟩

end Blueprint

end QueryContract
