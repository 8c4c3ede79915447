import QueryContract.Proofs.Likeness

/-!
# `Proofs.Spine` — what classification looks at

The **spine** of a type is the list of simple names that are met by following first arguments. Nothing else about a type
counts for its classification: paths are kept for display, and arguments after the first are never looked at.

* `DeclaredType.spine`, `SameSpine`, `SameName`;
* `likeness_spine`     — every vocabulary treats types of one spine alike;
* `alike_of_sameSpine` — the main statement, for meanings and for whole descriptions.
-/

namespace QueryContract

/-! ## Spines -/

namespace DeclaredType

/-- The simple names from the type inwards, along first arguments. -/
def spine : DeclaredType → List String
  | mk path [] => [simpleNameOf path]
  | mk path (first :: _) => simpleNameOf path :: spine first

end DeclaredType

/-- The types have one spine. -/
def SameSpine (t t' : DeclaredType) : Prop := t.spine = t'.spine

/-- The types have one simple name. -/
def SameName (t t' : DeclaredType) : Prop := t.simpleName = t'.simpleName

instance (t t' : DeclaredType) : Decidable (SameSpine t t') := inferInstanceAs (Decidable (t.spine = t'.spine))

instance (t t' : DeclaredType) : Decidable (SameName t t') :=
  inferInstanceAs (Decidable (t.simpleName = t'.simpleName))

theorem DeclaredType.spine_ne_nil (t : DeclaredType) : t.spine ≠ [] := by
  fun_cases spine t <;> simp

namespace SameSpine

variable {t t' : DeclaredType}

/-- A spine starts with the simple name of the type, -/
theorem sameName (h : SameSpine t t') : SameName t t' := by
  unfold SameSpine at h
  unfold SameName
  fun_cases DeclaredType.spine t <;> fun_cases DeclaredType.spine t' <;>
    exact (List.cons.inj h).1

/-- and goes on with the spine of the first argument, if there is one. -/
theorem firstArg? (h : SameSpine t t') : Option.Rel SameSpine t.firstArg? t'.firstArg? := by
  unfold SameSpine at h
  obtain ⟨path, args⟩ := t
  obtain ⟨path', args'⟩ := t'
  cases args with
  | nil =>
      cases args' with
      | nil => exact .none
      | cons first' more' => exact absurd (List.cons.inj h).2.symm first'.spine_ne_nil
  | cons first more =>
      cases args' with
      | nil => exact absurd (List.cons.inj h).2 first.spine_ne_nil
      | cons first' more' => exact .some (List.cons.inj h).2

end SameSpine

/-- **Every vocabulary treats types of one spine alike.** -/
theorem likeness_spine (v : Vocabulary) : Likeness v v SameSpine SameName where
  name h := h.sameName
  wrapper h := congrArg v.wrappers.find? h.sameName
  below h sup := congrArg (v.hierarchy.isBelow · sup) h.sameName
  inside h := h.firstArg?
  entity h := h.sameName
  entityName h := h

/-! ## Methods -/

/-- Two methods, each in its repository, whose types look the same: the types of the parameters by their simple names,
    the result types by their spines, and so what the repositories say. -/
structure Method.SameSpines (repository repository' : Repository) (m m' : Method) : Prop where
  parameters : List.Forall₂ (fun p p' => SameName p.type p'.type)
    (Analyzer.resolvedParameters repository m) (Analyzer.resolvedParameters repository' m')
  result : SameSpine (repository.resultType m) (repository'.resultType m')
  domain : Option.Rel SameName repository.domain repository'.domain
  element : Option.Rel SameSpine (repository.elementType m) (repository'.elementType m')

/-- A hierarchy gives parameters whose types have one simple name the same role. -/
theorem Classifier.map_ofHierarchy_congr (h : Hierarchy) {ps ps' : List DeclaredParameter}
    (same : List.Forall₂ (fun p p' => SameName p.type p'.type) ps ps') :
    ps.map (ofHierarchy h) = ps'.map (ofHierarchy h) := by
  induction same with
  | nil => rfl
  | cons hp _ ih => rw [List.map_cons, List.map_cons, ofHierarchy_congr h hp, ih]

/-- **Only spines count.** Whatever the vocabulary is, declared types of one spine mean the same: both are refused, or
    both have one shape, and the types in their meanings have the same spines. So, where the vocabulary decides the
    roles too, methods whose types look the same are described the same way: both are rejected for one reason, or both
    are accepted with the same roles at the same positions and the same meaning. -/
theorem alike_of_sameSpine (v : Vocabulary) :
    (∀ {declared declared' : DeclaredType} {domain domain' override override' : Option DeclaredType},
      SameSpine declared declared' → Option.Rel SameName domain domain' → Option.Rel SameSpine override override' →
      ExceptRel (Malformed.Alike SameSpine) (Resolution.Alike SameSpine SameName)
        (v.resolve declared domain override) (v.resolve declared' domain' override')) ∧
    ∀ {repository repository' : Repository} {m m' : Method}, Method.SameSpines repository repository' m m' →
      ExceptRel (Rejection.Alike (Malformed.Alike SameSpine) m m') (Description.Alike SameSpine SameName m m')
        ((Blueprint.mk v none).build.describe repository m) ((Blueprint.mk v none).build.describe repository' m') := by
  constructor
  · intro declared declared' domain domain' override override' hdeclared hdomain hoverride
    exact (likeness_spine v).resolve hdeclared hdomain hoverride
  · intro repository repository' m m' h
    have hroles := Classifier.map_ofHierarchy_congr v.hierarchy h.parameters
    have hlike : Likeness (Blueprint.mk v none).build.vocabulary (Blueprint.mk v none).build.vocabulary
      SameSpine SameName := likeness_spine v
    exact hlike.describe hroles h.result h.domain h.element

/-- A page of users that comes later, -/
def laterPage : DeclaredType :=
  .generic "std::Future" [.generic "Page" [.named "model::User", .named "Total"], .named "Error"]

/-- and the same with other paths and without further arguments. -/
def laterPagePlain : DeclaredType := .generic "Future" [.generic "web::Page" [.named "User"]]

/-- A method that returns the one, -/
def findAll : Method :=
  { name := "find_all", owner := some "Users",
    parameters := [⟨some "page", .named "PageRequest"⟩, ⟨some "name", .named "String"⟩], result := laterPage }

/-- and one that returns the other. -/
def searchAll : Method :=
  { name := "search",
    parameters := [⟨none, .generic "web::PageRequest" [.named "Key"]⟩, ⟨some "n", .named "std::String"⟩],
    result := laterPagePlain }

/-- The two types and the two methods look the same, so they are classified alike. -/
theorem alike_of_sameSpine_laterPage :
    (SameSpine laterPage laterPagePlain ∧
      ExceptRel (Malformed.Alike SameSpine) (Resolution.Alike SameSpine SameName)
        (Vocabulary.builtin.resolve laterPage (some (.named "User")) none)
        (Vocabulary.builtin.resolve laterPagePlain (some (.named "model::User")) none)) ∧
    Method.SameSpines (.ofBindings none (some (.named "User")) []) (.ofBindings none (some (.named "model::User")) [])
        findAll searchAll ∧
      ExceptRel (Rejection.Alike (Malformed.Alike SameSpine) findAll searchAll)
        (Description.Alike SameSpine SameName findAll searchAll)
        ((Blueprint.mk .builtin none).build.describe (.ofBindings none (some (.named "User")) []) findAll)
        ((Blueprint.mk .builtin none).build.describe (.ofBindings none (some (.named "model::User")) [])
          searchAll) := by
  have hspine : SameSpine laterPage laterPagePlain := by decide +kernel
  have hname : SameName (.named "User") (.named "model::User") := by decide +kernel
  have hmethods : Method.SameSpines (.ofBindings none (some (.named "User")) [])
      (.ofBindings none (some (.named "model::User")) []) findAll searchAll := by
    refine ⟨.cons ?_ (.cons ?_ .nil), hspine, .some hname, .none⟩
    · decide +kernel
    · decide +kernel
  exact ⟨⟨hspine, (alike_of_sameSpine .builtin).1 hspine (.some hname) .none⟩,
    hmethods, (alike_of_sameSpine .builtin).2 hmethods⟩

end QueryContract
