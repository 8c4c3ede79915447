import QueryContract.Proofs.Classification
import QueryContract.Proofs.Exits
import QueryContract.Proofs.Precedence

/-!
# `Proofs.Likeness` — two classifications side by side

What a type means hangs on few things: the simple names that are met by following first arguments, and what the
vocabulary knows under these names. `Likeness v v' R S` states this as an interface. `R` relates types that are looked
into, `S` entity types, which are only compared with; whatever meets the few conditions, two classifications of related
types go the same way.

* `ExceptRel`          — two results of one kind;
* `Likeness`           — the conditions on `R` and `S`;
* `Likeness.resolve`   — meanings of related types are related;
* `Parameters.classify_rel` — parameters that are given the same roles are classified the same way;
* `Analyzer.describe_rel`   — descriptions are related as the parameters and the meanings are;
* `Likeness.describe`  — descriptions of methods whose types are related.
-/

namespace QueryContract

/-- Two results of one kind: both refused, with related reasons, or both given, with related values. -/
inductive ExceptRel {ε ε' α α' : Type} (refused : ε → ε' → Prop) (given : α → α' → Prop) :
    Except ε α → Except ε' α' → Prop
  | error {e : ε} {e' : ε'} : refused e e' → ExceptRel refused given (.error e) (.error e')
  | ok {x : α} {x' : α'} : given x x' → ExceptRel refused given (.ok x) (.ok x')

namespace ExceptRel

variable {ε ε' α α' : Type}

/-- A result goes with itself. -/
theorem refl (x : Except ε α) : ExceptRel Eq Eq x x :=
  match x with
  | .error _ => .error rfl
  | .ok _ => .ok rfl

/-- Results that are related are related more loosely, too. -/
theorem imp {refused refused' : ε → ε' → Prop} {given given' : α → α' → Prop} {x : Except ε α} {x' : Except ε' α'}
    (h : ExceptRel refused given x x') (hrefused : ∀ {e e'}, refused e e' → refused' e e')
    (hgiven : ∀ {y y'}, given y y' → given' y y') : ExceptRel refused' given' x x' := by
  cases h with
  | error he => exact .error (hrefused he)
  | ok hy => exact .ok (hgiven hy)

end ExceptRel

/-- The same reason, up to the type that it names. -/
inductive Malformed.Alike (R : DeclaredType → DeclaredType → Prop) : Malformed → Malformed → Prop
  | duplicateRole (role : Role) (positions : List Nat) :
      Alike R (.duplicateRole role positions) (.duplicateRole role positions)
  | missingTypeArgument {t t' : DeclaredType} :
      R t t' → Alike R (.missingTypeArgument t) (.missingTypeArgument t')

/-- The same meaning, up to the types in it. -/
structure Resolution.Alike (R S : DeclaredType → DeclaredType → Prop) (r r' : Resolution) : Prop where
  declared : R r.declared r'.declared
  unwrapped : R r.unwrapped r'.unwrapped
  element : R r.element r'.element
  domain : S r.domain r'.domain
  shape : r.shape = r'.shape

/-! ## The conditions -/

/-- **Types that two vocabularies treat alike.** -/
structure Likeness (v v' : Vocabulary) (R S : DeclaredType → DeclaredType → Prop) : Prop where
  /-- They have one simple name, -/
  name {t t' : DeclaredType} : R t t' → t.simpleName = t'.simpleName
  /-- under which both vocabularies know the same wrapper -/
  wrapper {t t' : DeclaredType} : R t t' → v.wrappers.find? t.simpleName = v'.wrappers.find? t'.simpleName
  /-- and the same types above it, -/
  below {t t' : DeclaredType} : R t t' →
    ∀ sup, v.hierarchy.isBelow t.simpleName sup = v'.hierarchy.isBelow t'.simpleName sup
  /-- and their first arguments are treated alike again. -/
  inside {t t' : DeclaredType} : R t t' → Option.Rel R t.firstArg? t'.firstArg?
  /-- They are alike as entities, -/
  entity {t t' : DeclaredType} : R t t' → S t t'
  /-- for which only the simple name counts. -/
  entityName {t t' : DeclaredType} : S t t' → t.simpleName = t'.simpleName

namespace Likeness

variable {v v' : Vocabulary} {R S : DeclaredType → DeclaredType → Prop} {t t' : DeclaredType}

/-! ## Questions about a type -/

section Questions

variable (h : Likeness v v' R S) (ht : R t t')

include h ht

theorem isWrapper : v.wrappers.isWrapper t = v'.wrappers.isWrapper t' := by
  unfold WrapperTable.isWrapper
  rw [h.wrapper ht]

theorem isSingleValued : v.wrappers.isSingleValued t = v'.wrappers.isSingleValued t' := by
  unfold WrapperTable.isSingleValued
  rw [h.wrapper ht]

theorem isMultiValued : v.wrappers.isMultiValued t = v'.wrappers.isMultiValued t' := by
  unfold WrapperTable.isMultiValued
  rw [h.wrapper ht]

theorem isOptional : v.wrappers.isOptional t = v'.wrappers.isOptional t' := by
  unfold WrapperTable.isOptional
  rw [h.wrapper ht]

theorem isCollectionLike : v.hierarchy.isCollectionLike t = v'.hierarchy.isCollectionLike t' := by
  unfold Hierarchy.isCollectionLike
  rw [h.below ht, h.below ht, h.name ht]

theorem isElementContainer : v.hierarchy.isElementContainer t = v'.hierarchy.isElementContainer t' := by
  unfold Hierarchy.isElementContainer
  rw [h.isCollectionLike ht, h.below ht, h.below ht]

theorem isLayer : v.isLayer t = v'.isLayer t' := by
  unfold Vocabulary.isLayer
  rw [h.isWrapper ht, h.isElementContainer ht]

theorem isTypeBelow {u u' : DeclaredType} (hu : S u u') :
    v.hierarchy.isTypeBelow t u = v'.hierarchy.isTypeBelow t' u' := by
  unfold Hierarchy.isTypeBelow
  rw [h.below ht, h.entityName hu]

end Questions

/-! ## Layers -/

variable {declared declared' unwrapped unwrapped' : DeclaredType}
  {domain domain' override override' : Option DeclaredType}

/-- Types that are alike are peeled step by step: one is a layer if the other is, and what is inside is alike again. -/
theorem peels (h : Likeness v v' R S) {layer layer' : DeclaredType → Prop} {core : DeclaredType}
    (hlayer : ∀ {u u'}, R u u' → (layer u ↔ layer' u')) (hpeels : PeelsTo layer t core) (ht : R t t') :
    ∃ core', PeelsTo layer' t' core' ∧ R core core' := by
  induction hpeels generalizing t' with
  | bare hbare => exact ⟨t', .bare fun hlayer' => hbare ((hlayer ht).2 hlayer'), ht⟩
  | raw hraw =>
      have hinside := h.inside ht
      rw [Vocabulary.firstArg?_eq_none_iff.2 hraw] at hinside
      generalize hfirst' : t'.firstArg? = first' at hinside
      cases hinside with
      | none => exact ⟨t', .raw (Vocabulary.firstArg?_eq_none_iff.1 hfirst'), ht⟩
  | inside hin hfirst _ ih =>
      have hinside := h.inside ht
      rw [hfirst] at hinside
      generalize hfirst' : t'.firstArg? = first' at hinside
      cases hinside with
      | some hinner =>
          obtain ⟨core', hcore', hcore⟩ := ih hinner
          exact ⟨core', .inside ((hlayer ht).1 hin) hfirst' hcore', hcore⟩

/-- So they are peeled to types that are alike. -/
theorem peelWhile (h : Likeness v v' R S) {layer layer' : DeclaredType → Bool}
    (hlayer : ∀ {u u'}, R u u' → layer u = layer' u') (ht : R t t') : R (t.peelWhile layer) (t'.peelWhile layer') := by
  have hpeels : PeelsTo (layer · = true) t (t.peelWhile layer) :=
    (DeclaredType.peelsTo_iff fun _ => Iff.rfl).2 rfl
  have hiff : ∀ {u u'}, R u u' → (layer u = true ↔ layer' u' = true) := by
    intro u u' hu
    rw [hlayer hu]
  obtain ⟨core', hcore', hcore⟩ := h.peels hiff hpeels ht
  rw [(DeclaredType.peelsTo_iff fun _ => Iff.rfl).1 hcore']
  exact hcore

theorem elementType (h : Likeness v v' R S) (ht : R t t') : R (v.elementType t) (v'.elementType t') := by
  rw [Vocabulary.elementType_eq_peelWhile, Vocabulary.elementType_eq_peelWhile]
  exact h.peelWhile h.isLayer ht

theorem peelOptional (h : Likeness v v' R S) (ht : R t t') :
    R (v.wrappers.peelOptional t) (v'.wrappers.peelOptional t') := by
  rw [WrapperTable.peelOptional_eq_peelWhile, WrapperTable.peelOptional_eq_peelWhile]
  exact h.peelWhile h.isOptional ht

/-- One layer comes off both, or is missing from both. -/
theorem unwrap (h : Likeness v v' R S) (ht : R t t') :
    ExceptRel (Malformed.Alike R) R (v.wrappers.unwrap t) (v'.wrappers.unwrap t') := by
  unfold WrapperTable.unwrap
  rw [h.isWrapper ht]
  split
  · have hinside := h.inside ht
    generalize t.firstArg? = first, t'.firstArg? = first' at hinside
    cases hinside with
    | some hfirst => exact .ok hfirst
    | none => exact .error (.missingTypeArgument ht)
  · exact .ok ht

/-! ## Shapes -/

/-- What might be a search hit is alike. -/
theorem hit? (h : Likeness v v' R S) (hd : R declared declared') (hu : R unwrapped unwrapped') :
    Option.Rel R (v.hit? declared unwrapped) (v'.hit? declared' unwrapped') := by
  unfold Vocabulary.hit?
  rw [h.isCollectionLike hu, h.below hu, h.isMultiValued hd]
  split
  · exact h.inside hu
  split
  · exact .some hu
  · exact .none

theorem isSearch (h : Likeness v v' R S) (hd : R declared declared') (hu : R unwrapped unwrapped') :
    v.isSearch declared unwrapped = v'.isSearch declared' unwrapped' := by
  unfold Vocabulary.isSearch
  have hhit := h.hit? hd hu
  generalize v.hit? declared unwrapped = hit, v'.hit? declared' unwrapped' = hit' at hhit
  rw [h.below hu]
  cases hhit with
  | some hhit => rw [Option.any_some, Option.any_some, h.below hhit]
  | none => rfl

theorem isCollection (h : Likeness v v' R S) (hd : R declared declared') (hu : R unwrapped unwrapped')
    {entity entity' : DeclaredType} (he : S entity entity') :
    v.isCollection declared unwrapped entity = v'.isCollection declared' unwrapped' entity' := by
  unfold Vocabulary.isCollection
  rw [h.isMultiValued hd, h.isTypeBelow (h.peelOptional hu) he, h.isWrapper hu, h.isSingleValued hu,
    h.isCollectionLike hu]

theorem classify (h : Likeness v v' R S) (hd : R declared declared') (hu : R unwrapped unwrapped')
    {entity entity' : DeclaredType} (he : S entity entity') :
    v.classify declared unwrapped entity = v'.classify declared' unwrapped' entity' := by
  unfold Vocabulary.classify
  rw [h.below hu, h.below hu, h.below hu, h.below hu, h.isSearch hd hu, h.isCollection hd hu he]

/-! ## Meanings -/

/-- The entity type of both is their element type, or that of both is the repository's. -/
theorem effectiveDomain (h : Likeness v v' R S) (hdomain : Option.Rel S domain domain') (ht : R t t') :
    S (v.effectiveDomain domain t) (v'.effectiveDomain domain' t') := by
  cases hdomain with
  | none => exact h.entity ht
  | some hentity =>
      unfold Vocabulary.effectiveDomain
      simp only [h.isTypeBelow ht hentity]
      split
      · exact h.entity ht
      · exact hentity

/-- **Types that are treated alike mean the same,** up to related types: both are refused, or both have one shape. -/
theorem resolve (h : Likeness v v' R S) (hd : R declared declared') (hdomain : Option.Rel S domain domain')
    (hoverride : Option.Rel R override override') :
    ExceptRel (Malformed.Alike R) (Resolution.Alike R S)
      (v.resolve declared domain override) (v'.resolve declared' domain' override') := by
  have hunwrap := h.unwrap hd
  unfold Vocabulary.resolve
  generalize v.wrappers.unwrap declared = inside, v'.wrappers.unwrap declared' = inside' at hunwrap
  cases hunwrap with
  | error hreason => exact .error hreason
  | @ok unwrapped unwrapped' hu =>
      -- an element type that is known beforehand hides the one found by peeling, on both sides or on neither
      have helement : R (override.getD (v.elementType unwrapped)) (override'.getD (v'.elementType unwrapped')) := by
        cases hoverride with
        | some hknown => exact hknown
        | none => exact h.elementType hu
      have hentity := h.effectiveDomain hdomain helement
      exact .ok ⟨hd, hu, helement, hentity, h.classify hd hu hentity⟩

end Likeness

/-! ## Parameters -/

namespace Parameters

/-- The roles by position. -/
def assignment (ps : Parameters) : List (Nat × Option Role) := ps.list.map fun p => (p.position, p.role)

/-- Which roles are played can be read off the assignment. -/
theorem has_of_assignment {ps ps' : Parameters} (h : ps.assignment = ps'.assignment) (role : Role) :
    ps.has role = ps'.has role := by
  have hread : ∀ qs : Parameters, qs.has role = qs.assignment.any fun entry => entry.2 = some role := by
    intro qs
    unfold has assignment
    rw [List.any_map]
    rfl
  rw [hread, hread, h]

variable {c c' : Classifier} {declared declared' : List DeclaredParameter}

/-- Two lists of which one classifier makes what another makes of the other. -/
theorem players_congr (h : declared.map c = declared'.map c') (role : Role) :
    players c declared role = players c' declared' role := by
  have hlength : declared.length = declared'.length := by
    rw [← List.length_map c, h, List.length_map]
  unfold players
  rw [hlength]
  refine List.filter_congr fun i _ => ?_
  have hget : declared[i]?.map c = declared'[i]?.map c' := by
    rw [← List.getElem?_map, ← List.getElem?_map, h]
  have hrole : declared[i]?.bind c = declared'[i]?.bind c' := by
    simpa only [Option.bind_map, Function.id_comp] using congrArg (Option.bind · id) hget
  rw [hrole]

theorem headcount_congr (h : declared.map c = declared'.map c') (role : Role) :
    headcount c declared role = headcount c' declared' role := by
  rw [← length_players, ← length_players, players_congr h]

theorem repeated_congr (h : declared.map c = declared'.map c') : repeated c declared = repeated c' declared' := by
  unfold repeated
  simp only [headcount_congr h]

theorem assignment_annotated (c : Classifier) (declared : List DeclaredParameter) :
    (Parameters.mk (annotated c declared)).assignment = (declared.map c).mapIdx Prod.mk := by
  apply List.ext_getElem?
  intro i
  simp only [assignment, annotated, List.getElem?_map, List.getElem?_mapIdx, Option.map_map]
  rfl

/-- **Parameters that are given the same roles are classified the same way:** a repeated role is reported of both with
    the same positions, or the roles are at the same positions of both. -/
theorem classify_rel (R : DeclaredType → DeclaredType → Prop) (h : declared.map c = declared'.map c') :
    ExceptRel (Malformed.Alike R) (fun ps ps' => ps.assignment = ps'.assignment)
      (classify c declared) (classify c' declared') := by
  -- both lists have the same headcounts, so a role is the first repeated one of both or of neither
  rcases repeated_or_once c declared with ⟨role, hfirst⟩ | honce
  · have hfirst' : FirstCase (repeated c' declared') role := repeated_congr h ▸ hfirst
    rw [classify_of_repeated hfirst, classify_of_repeated hfirst', players_congr h]
    exact .error (.duplicateRole _ _)
  · have honce' : ∀ role, headcount c' declared' role ≤ 1 := fun role => headcount_congr h role ▸ honce role
    rw [classify_of_once honce, classify_of_once honce']
    refine .ok ?_
    rw [assignment_annotated, assignment_annotated, h]

end Parameters

/-! ## Descriptions -/

/-- Only the roles count for the rules. -/
theorem Rules.violation?_congr {ps ps' : Parameters} (h : ∀ role, ps.has role = ps'.has role) (shape : Shape) :
    violation? ps shape = violation? ps' shape := by
  have hhas : ps.has = ps'.has := funext h
  unfold violation? conflict? restriction? requirement?
  simp only [hhas]

/-- The same violation, up to what makes a signature malformed. -/
inductive Violation.Alike (bad : Malformed → Malformed → Prop) : Violation → Violation → Prop
  | malformed {reason reason' : Malformed} : bad reason reason' → Alike bad (.malformed reason) (.malformed reason')
  | same (violation : Violation) : Alike bad violation violation

/-- Violations for the same reason are the same. -/
theorem Violation.Alike.eq {violation violation' : Violation} (h : Violation.Alike Eq violation violation') :
    violation = violation' := by
  cases h with
  | malformed hreason => exact congrArg Violation.malformed hreason
  | same => rfl

/-- Rejections of two methods with the same violation. -/
structure Rejection.Alike (bad : Malformed → Malformed → Prop) (m m' : Method) (r r' : Rejection) : Prop where
  method : r.method = m
  method' : r'.method = m'
  violation : r.violation.Alike bad r'.violation

/-- **Descriptions are related as the parameters and the meanings are.** -/
theorem Analyzer.describe_rel {a a' : Analyzer} {repository repository' : Repository} {m m' : Method}
    {bad : Malformed → Malformed → Prop} {P : Parameters → Parameters → Prop} {Q : Resolution → Resolution → Prop}
    (hps : ExceptRel bad P (a.parameters repository m) (a'.parameters repository' m'))
    (hres : ExceptRel bad Q (a.resolution repository m) (a'.resolution repository' m'))
    (hroles : ∀ {ps ps'}, P ps ps' → ∀ role, ps.has role = ps'.has role)
    (hshape : ∀ {r r'}, Q r r' → r.shape = r'.shape) :
    ExceptRel (Rejection.Alike bad m m')
      (fun d d' => ∃ ps ps' r r', d = ⟨m, repository, a.vocabulary, ps, r⟩ ∧
        d' = ⟨m', repository', a'.vocabulary, ps', r'⟩ ∧ P ps ps' ∧ Q r r')
      (a.describe repository m) (a'.describe repository' m') := by
  generalize hp : a.parameters repository m = parameters, hp' : a'.parameters repository' m' = parameters' at hps
  generalize hr : a.resolution repository m = resolution, hr' : a'.resolution repository' m' = resolution' at hres
  cases hps with
  | error hreason =>
      rw [describe_of_malformed hp, describe_of_malformed hp']
      exact .error ⟨rfl, rfl, .malformed hreason⟩
  | @ok ps ps' hps =>
      cases hres with
      | error hreason =>
          rw [describe_of_unresolved hp hr, describe_of_unresolved hp' hr']
          exact .error ⟨rfl, rfl, .malformed hreason⟩
      | @ok r r' hres =>
          have hrules : Rules.violation? ps r.shape = Rules.violation? ps' r'.shape := by
            rw [hshape hres, Rules.violation?_congr (hroles hps)]
          cases hverdict : Rules.violation? ps' r'.shape with
          | some violation =>
              rw [describe_of_violation hp hr (hrules.trans hverdict), describe_of_violation hp' hr' hverdict]
              exact .error ⟨rfl, rfl, .same violation⟩
          | none =>
              rw [describe_of_sound hp hr (hrules.trans hverdict), describe_of_sound hp' hr' hverdict]
              exact .ok ⟨ps, ps', r, r', rfl, rfl, hps, hres⟩

/-- The same description of two methods, up to the types in it. -/
structure Description.Alike (R S : DeclaredType → DeclaredType → Prop) (m m' : Method) (d d' : Description) :
    Prop where
  method : d.method = m
  method' : d'.method = m'
  roles : d.parameters.assignment = d'.parameters.assignment
  resolution : d.resolution.Alike R S d'.resolution
  isCollectionLike : d.isCollectionLike = d'.isCollectionLike
  isEntityResult : d.isEntityResult = d'.isEntityResult
  entityName : d.entityName = d'.entityName

/-- **Methods whose types are treated alike are described alike,** up to related types: both are rejected for one
    reason, or both are accepted. -/
theorem Likeness.describe {a a' : Analyzer} {R S : DeclaredType → DeclaredType → Prop}
    {repository repository' : Repository} {m m' : Method} (h : Likeness a.vocabulary a'.vocabulary R S)
    (hroles : (Analyzer.resolvedParameters repository m).map a.classifier =
      (Analyzer.resolvedParameters repository' m').map a'.classifier)
    (hresult : R (repository.resultType m) (repository'.resultType m'))
    (hdomain : Option.Rel S repository.domain repository'.domain)
    (helement : Option.Rel R (repository.elementType m) (repository'.elementType m')) :
    ExceptRel (Rejection.Alike (Malformed.Alike R) m m') (Description.Alike R S m m')
      (a.describe repository m) (a'.describe repository' m') := by
  have hps := Parameters.classify_rel R hroles
  have hres := h.resolve hresult hdomain helement
  have hdescribe := Analyzer.describe_rel hps hres Parameters.has_of_assignment Resolution.Alike.shape
  generalize a.describe repository m = out, a'.describe repository' m' = out' at hdescribe
  cases hdescribe with
  | error hrejected => exact .error hrejected
  | ok haccepted =>
      obtain ⟨ps, ps', r, r', rfl, rfl, hassignment, hr⟩ := haccepted
      refine .ok ⟨rfl, rfl, hassignment, hr, ?_, ?_, h.entityName hr.domain⟩
      · unfold Description.isCollectionLike Description.shape
        simp only [hr.shape, h.isCollection hr.declared hr.unwrapped hr.domain]
      · exact h.isTypeBelow hr.element hr.domain

end QueryContract
