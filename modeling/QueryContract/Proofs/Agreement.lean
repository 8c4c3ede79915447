import QueryContract.Proofs.Likeness

/-!
# `Proofs.Agreement` — vocabularies that agree

Vocabularies that were built in different ways, or of which one knows more than the other, may say the same about all
types that a method meets. Then nothing about the method tells them apart.

* `Vocabulary.AgreeOn`   — two vocabularies say the same about certain types;
* `AgreeOn.resolve`      — so these types mean the same;
* `Description.Agrees`   — one description, whatever vocabulary is kept in it;
* `AgreeOn.describe`     — methods with such types are described the same way, the roles of their parameters included.
-/

namespace QueryContract

/-- Two vocabularies say the same about the types with the property `P`, and about what is inside of them. -/
structure Vocabulary.AgreeOn (v v' : Vocabulary) (P : DeclaredType → Prop) : Prop where
  wrapper {t : DeclaredType} : P t → v.wrappers.find? t.simpleName = v'.wrappers.find? t.simpleName
  below {t : DeclaredType} : P t →
    ∀ sup, v.hierarchy.isBelow t.simpleName sup = v'.hierarchy.isBelow t.simpleName sup
  inside {t inner : DeclaredType} : P t → t.firstArg? = some inner → P inner

/-- A description, whatever vocabulary is kept in it: all that was decided, and all that follows from it. -/
structure Description.Agrees (d d' : Description) : Prop where
  method : d.method = d'.method
  repository : d.repository = d'.repository
  parameters : d.parameters = d'.parameters
  resolution : d.resolution = d'.resolution
  isCollectionLike : d.isCollectionLike = d'.isCollectionLike
  isEntityResult : d.isEntityResult = d'.isEntityResult
  queryId : d.queryId = d'.queryId

/-! ## Related by equality -/

/-- If related types are equal, so are related reasons, -/
theorem Malformed.Alike.eq {R : DeclaredType → DeclaredType → Prop} (hR : ∀ {t t'}, R t t' → t = t')
    {reason reason' : Malformed} (h : reason.Alike R reason') : reason = reason' := by
  cases h with
  | duplicateRole role positions => rfl
  | missingTypeArgument ht => rw [hR ht]

/-- and related meanings. -/
theorem Resolution.Alike.eq {R : DeclaredType → DeclaredType → Prop} (hR : ∀ {t t'}, R t t' → t = t')
    {r r' : Resolution} (h : r.Alike R Eq r') : r = r' := by
  obtain ⟨declared, unwrapped, element, domain, shape⟩ := r
  obtain ⟨declared', unwrapped', element', domain', shape'⟩ := r'
  obtain rfl : declared = declared' := hR h.declared
  obtain rfl : unwrapped = unwrapped' := hR h.unwrapped
  obtain rfl : element = element' := hR h.element
  obtain rfl : domain = domain' := h.domain
  obtain rfl : shape = shape' := h.shape
  rfl

/-- Rejections of one method with the same violation are the same. -/
theorem Rejection.Alike.eq {m : Method} {r r' : Rejection} (h : r.Alike Eq m m r') : r = r' := by
  obtain ⟨method, violation⟩ := r
  obtain ⟨method', violation'⟩ := r'
  obtain rfl : method = method' := h.method.trans h.method'.symm
  obtain rfl : violation = violation' := h.violation.eq
  rfl

/-! ## Roles -/

namespace Parameters

variable {c c' : Classifier}

theorem annotate_congr {ps : List DeclaredParameter} (h : ∀ p ∈ ps, c p = c' p) (start : Nat) :
    annotate c start ps = annotate c' start ps := by
  induction ps generalizing start with
  | nil => rfl
  | cons p ps ih =>
      have hps : ∀ q ∈ ps, c q = c' q := fun q hq => h q (List.mem_cons_of_mem p hq)
      rw [annotate, annotate, ih hps, h p List.mem_cons_self]

/-- Classifiers that give each parameter the same role classify the parameters in the same way. -/
theorem classify_congr {ps : List DeclaredParameter} (h : ∀ p ∈ ps, c p = c' p) : classify c ps = classify c' ps := by
  unfold classify
  rw [annotate_congr h]

end Parameters

/-! ## Meanings and descriptions -/

namespace Vocabulary.AgreeOn

variable {v v' : Vocabulary} {P : DeclaredType → Prop}

/-- Agreement is likeness of each type to itself. Entity types need not have the property: they are only compared
    with. -/
theorem likeness (h : v.AgreeOn v' P) : Likeness v v' (fun t t' => t = t' ∧ P t) Eq where
  name ht := by rw [ht.1]
  wrapper ht := by rw [← ht.1, h.wrapper ht.2]
  below ht sup := by rw [← ht.1, h.below ht.2]
  inside := by
    rintro t _ ⟨rfl, ht⟩
    cases hfirst : t.firstArg? with
    | none => exact .none
    | some inner => exact .some ⟨rfl, h.inside ht hfirst⟩
  entity ht := ht.1
  entityName ht := by rw [ht]

/-- **Where two vocabularies agree, types mean the same.** The meanings are still compared type by type, because
    what follows from them is asked of types with the property. -/
theorem resolve (h : v.AgreeOn v' P) {declared : DeclaredType} {override : Option DeclaredType}
    (domain : Option DeclaredType) (hdeclared : P declared) (hoverride : ∀ t, override = some t → P t) :
    ExceptRel Eq (Resolution.Alike (fun t t' => t = t' ∧ P t) Eq) (v.resolve declared domain override)
      (v'.resolve declared domain override) := by
  have hdomain : Option.Rel Eq domain domain := by
    cases domain with
    | none => exact .none
    | some entity => exact .some rfl
  have hknown : Option.Rel (fun t t' => t = t' ∧ P t) override override := by
    cases override with
    | none => exact .none
    | some t => exact .some ⟨rfl, hoverride t rfl⟩
  exact (h.likeness.resolve ⟨rfl, hdeclared⟩ hdomain hknown).imp (Malformed.Alike.eq And.left) id

/-- The hierarchies of both give a parameter the same role. -/
theorem ofHierarchy (h : v.AgreeOn v' P) {p : DeclaredParameter} (hp : P p.type) :
    Classifier.ofHierarchy v.hierarchy p = Classifier.ofHierarchy v'.hierarchy p := by
  unfold Classifier.ofHierarchy
  simp only [h.below hp]

/-- **Where two vocabularies agree, methods are described the same way.** Both analyzers reject a method for one reason,
    or both accept it with the same parameters and the same meaning. -/
theorem describe (h : v.AgreeOn v' P) {repository : Repository} {m : Method}
    (hparameters : ∀ p ∈ Analyzer.resolvedParameters repository m, P p.type)
    (hresult : P (repository.resultType m)) (helement : ∀ t, repository.elementType m = some t → P t) :
    ExceptRel Eq Description.Agrees ((Blueprint.mk v none).build.describe repository m)
      ((Blueprint.mk v' none).build.describe repository m) := by
  have hclassify : (Blueprint.mk v none).build.parameters repository m =
      (Blueprint.mk v' none).build.parameters repository m :=
    Parameters.classify_congr fun p hp => h.ofHierarchy (hparameters p hp)
  have hps : ExceptRel Eq Eq ((Blueprint.mk v none).build.parameters repository m)
      ((Blueprint.mk v' none).build.parameters repository m) := hclassify ▸ .refl _
  have hres := h.resolve repository.domain hresult helement
  have hdescribe := Analyzer.describe_rel hps hres (fun heq role => by rw [heq]) Resolution.Alike.shape
  -- the same parameters and related meanings, of which all parts are equal
  refine hdescribe.imp Rejection.Alike.eq ?_
  rintro _ _ ⟨ps, _, r, r', rfl, rfl, rfl, hr⟩
  have hsame : r = r' := hr.eq And.left
  refine ⟨rfl, rfl, rfl, hsame, ?_, ?_, ?_⟩
  · unfold Description.isCollectionLike Description.shape
    have hbulk : (Blueprint.mk v none).build.vocabulary.isCollection r.declared r.unwrapped r.domain =
        (Blueprint.mk v' none).build.vocabulary.isCollection r'.declared r'.unwrapped r'.domain :=
      h.likeness.isCollection hr.declared hr.unwrapped hr.domain
    simp only [hr.shape, hbulk]
  · exact h.likeness.isTypeBelow hr.element hr.domain
  · unfold Description.queryId Description.entityName Description.domain
    rw [hsame]

end Vocabulary.AgreeOn

end QueryContract
