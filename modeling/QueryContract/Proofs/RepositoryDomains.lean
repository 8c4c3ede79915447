import Mathlib.Control.Monad.Basic
import QueryContract.Proofs.Lists
import QueryContract.Source

/-!
# `Proofs.RepositoryDomains` — where the entity type of a repository comes from

A trait that is a repository by its name says of which type it is one with its first argument. The entity type of a
declaration is read off the **first** such trait among those it extends. If that one has no arguments, the declaration has
no entity type, also when a later repository among the traits has some.

* `NamesEntity`, `exists_namesEntity_iff` — the type that the traits name, whatever stands between them;
* `Shadowed`, `domain_of_shadowed`        — a repository without arguments stands before the one that names the type;
* `FindsEntity`                           — the entity type is the one that is named (`marker_hides_entity`);
* `domain_verdict`                        — what the entity type is, and when it is the one that is named.
-/

namespace QueryContract

namespace RepositoryDeclaration

variable {d : RepositoryDeclaration} {t entity : DeclaredType}

/-! ## The type that is named -/

/-- The trait is a repository by its name, and says of which type. -/
def Tells (t : DeclaredType) : Prop := isRepository t = true ∧ t.args ≠ []

instance : DecidablePred Tells := fun _ => inferInstanceAs (Decidable (_ ∧ _))

/-- The first trait that is a repository by its name and has arguments names the type with the first of them. -/
def NamesEntity (d : RepositoryDeclaration) (entity : DeclaredType) : Prop :=
  ∃ before t later, d.supertraits = before ++ t :: later ∧ Tells t ∧ t.firstArg? = some entity ∧ ∀ u ∈ before, ¬ Tells u

theorem Tells.exists_firstArg? (h : Tells t) : ∃ entity, t.firstArg? = some entity := by
  obtain ⟨entity, rest, hargs⟩ := List.exists_cons_of_ne_nil h.2
  exact ⟨entity, by rw [DeclaredType.firstArg?, hargs, List.head?_cons]⟩

/-- A type is named when some repository among the traits has arguments. -/
theorem exists_namesEntity_iff : (∃ entity, d.NamesEntity entity) ↔ ∃ t ∈ d.supertraits, Tells t := by
  constructor
  · rintro ⟨entity, before, t, later, hd, ht, -, -⟩
    exact ⟨t, by rw [hd]; simp, ht⟩
  · intro h
    obtain ⟨before, t, later, hd, ht, hbefore⟩ := exists_first h
    obtain ⟨entity, hentity⟩ := ht.exists_firstArg?
    exact ⟨entity, before, t, later, hd, ht, hentity, hbefore⟩

/-! ## The type that is found -/

/-- The entity type is the first argument of the first repository among the traits. -/
theorem domain_eq_some_iff : d.domain = some entity ↔
    ∃ before t later, d.supertraits = before ++ t :: later ∧ isRepository t = true ∧ t.firstArg? = some entity ∧
      ∀ u ∈ before, isRepository u = false := by
  rw [domain, Option.bind_eq_some_iff]
  constructor
  · rintro ⟨t, hfind, hentity⟩
    obtain ⟨ht, before, later, hd, hbefore⟩ := List.find?_eq_some_iff_append.1 hfind
    exact ⟨before, t, later, hd, ht, hentity, fun u hu => by simpa using hbefore u hu⟩
  · rintro ⟨before, t, later, hd, ht, hentity, hbefore⟩
    refine ⟨t, List.find?_eq_some_iff_append.2 ⟨ht, before, later, hd, ?_⟩, hentity⟩
    intro u hu
    simp [hbefore u hu]

/-- What is found is named: before the first repository none tells a type. -/
theorem namesEntity_of_domain (h : d.domain = some entity) : d.NamesEntity entity := by
  obtain ⟨before, t, later, hd, ht, hentity, hbefore⟩ := domain_eq_some_iff.1 h
  refine ⟨before, t, later, hd, ⟨ht, ?_⟩, hentity, ?_⟩
  · intro hargs
    rw [DeclaredType.firstArg?, hargs] at hentity
    cases hentity
  · intro u hu htells
    exact absurd htells.1 (by simp [hbefore u hu])

/-! ## Where the two differ -/

/-- The first repository among the traits has no arguments, and a later one has some. -/
def Shadowed (d : RepositoryDeclaration) : Prop :=
  ∃ before t later, d.supertraits = before ++ t :: later ∧ isRepository t = true ∧ t.args = [] ∧
    (∀ u ∈ before, isRepository u = false) ∧ ∃ u ∈ later, Tells u

/-- The entity type is the one that the traits name, if they name one. -/
def FindsEntity (d : RepositoryDeclaration) : Prop := ∀ entity, d.domain = some entity ↔ d.NamesEntity entity

/-- A shadowed repository has no entity type. -/
theorem domain_of_shadowed (h : d.Shadowed) : d.domain = none := by
  obtain ⟨before, t, later, hd, ht, hargs, hbefore, -⟩ := h
  have hfind : d.supertraits.find? isRepository = some t := by
    refine List.find?_eq_some_iff_append.2 ⟨ht, before, later, hd, fun u hu => ?_⟩
    simp [hbefore u hu]
  rw [domain, hfind, Option.bind_some, DeclaredType.firstArg?, hargs, List.head?_nil]

/-- Its traits name one all the same. -/
theorem not_findsEntity_of_shadowed (h : d.Shadowed) : ¬ d.FindsEntity := by
  intro hfinds
  obtain ⟨before, t, later, hd, -, -, -, u, hu, htells⟩ := id h
  obtain ⟨entity, hentity⟩ := exists_namesEntity_iff.2 ⟨u, by rw [hd]; simp [hu], htells⟩
  have hfound := (hfinds entity).2 hentity
  rw [domain_of_shadowed h] at hfound
  cases hfound

/-- **What is named is found, unless the repository is shadowed:** the first repository by name is then the first one with
    arguments. -/
theorem domain_of_namesEntity (h : d.NamesEntity entity) (hopen : ¬ d.Shadowed) : d.domain = some entity := by
  obtain ⟨before, t, later, hd, ht, hentity, hbefore⟩ := h
  refine domain_eq_some_iff.2 ⟨before, t, later, hd, ht.1, hentity, ?_⟩
  by_cases hfirst : ∃ u ∈ before, isRepository u = true
  · obtain ⟨front, u, back, hsplit, hu, hfront⟩ := exists_first hfirst
    have hargs : u.args = [] := by
      by_cases hargs : u.args = []
      · exact hargs
      · exact absurd ⟨hu, hargs⟩ (hbefore u (by simp [hsplit]))
    refine absurd ⟨front, u, back ++ t :: later, ?_, hu, hargs, ?_, t, by simp, ht⟩ hopen
    · rw [hd, hsplit, List.append_assoc, List.cons_append]
    · intro x hx
      simpa using hfront x hx
  · intro u hu
    exact Bool.eq_false_iff.2 fun hrepository => hfirst ⟨u, hu, hrepository⟩

/-- A repository that extends a repository without arguments before the one of users. -/
def marked : RepositoryDeclaration where
  name := "N"
  generics := []
  supertraits := [.named "MarkerRepository", .generic "CrudRepository" [.named "User"]]
  methods := []

/-- **A repository without arguments hides the entity type:** behind `MarkerRepository`, `User` is named and not found. -/
theorem marker_hides_entity :
    ofSource "trait N: MarkerRepository + CrudRepository<User> \x7b\x7d" = .ok marked ∧
    marked.NamesEntity (.named "User") ∧ marked.domain = none ∧ ¬ marked.FindsEntity := by
  have hshadowed : marked.Shadowed :=
    ⟨[], .named "MarkerRepository", [.generic "CrudRepository" [.named "User"]], rfl, by decide, rfl, by simp,
      .generic "CrudRepository" [.named "User"], by simp, by decide⟩
  refine ⟨by decide +kernel, ?_, domain_of_shadowed hshadowed, not_findsEntity_of_shadowed hshadowed⟩
  exact ⟨[.named "MarkerRepository"], .generic "CrudRepository" [.named "User"], [], rfl, by decide, rfl, by decide⟩

/-- **The verdict on the entity type.** It is the first argument of the first repository among the traits, whatever else
    stands among them. It is the type that the traits name exactly if no repository without arguments stands before the
    one that names it, and otherwise there is none. -/
theorem domain_verdict (d : RepositoryDeclaration) :
    (∀ entity, d.domain = some entity ↔
      ∃ before t later, d.supertraits = before ++ t :: later ∧ isRepository t = true ∧ t.firstArg? = some entity ∧
        ∀ u ∈ before, isRepository u = false) ∧
    ((∃ entity, d.NamesEntity entity) ↔ ∃ t ∈ d.supertraits, Tells t) ∧
    (d.FindsEntity ↔ ¬ d.Shadowed) ∧
    (d.Shadowed → d.domain = none) := by
  refine ⟨fun _ => domain_eq_some_iff, exists_namesEntity_iff, ?_, domain_of_shadowed⟩
  constructor
  · intro hfinds hshadowed
    exact not_findsEntity_of_shadowed hshadowed hfinds
  · intro hopen entity
    exact ⟨namesEntity_of_domain, fun h => domain_of_namesEntity h hopen⟩

end RepositoryDeclaration

end QueryContract
