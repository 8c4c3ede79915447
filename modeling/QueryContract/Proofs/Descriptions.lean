import QueryContract.Proofs.Exits
import QueryContract.Proofs.Precedence

/-!
# `Proofs.Descriptions` — what a description answers

A description keeps what its result type means, and answers two questions about it in a way of its own. Whether the method
returns entities is asked of the hierarchy again, but about the entity type that was chosen and no longer about that of the
repository. Whether it returns a bulk of values follows from the shape alone for five of the seven shapes. Both answers are
the ones that the meaning of the result type gives.

* `Vocabulary.Belongs`          — element types that are entities of the repository;
* `below_effectiveDomain_iff`, `effectiveDomain_stable` — what the choice of the entity type decides;
* `Analyzer.entity_of_describe` — the entity type, and whether entities are returned;
* `Analyzer.bulk_of_describe`   — whether a bulk of values is returned.
-/

namespace QueryContract

namespace Vocabulary

/-- The element type is an entity of the repository: there is no entity type, or the element type is below it. -/
def Belongs (v : Vocabulary) (domain : Option DeclaredType) (element : DeclaredType) : Prop :=
  domain = none ∨ ∃ nominal, domain = some nominal ∧ v.hierarchy.Below element.simpleName nominal.simpleName

variable {v : Vocabulary} {domain override : Option DeclaredType} {declared unwrapped element entity nominal : DeclaredType}

/-! ## The entity type -/

theorem effectiveDomain_of_belongs (h : v.Belongs domain element) : v.effectiveDomain domain element = element := by
  refine entityIs_iff.1 ?_
  rcases h with rfl | ⟨nominal, rfl, hbelow⟩
  · exact .inl ⟨rfl, rfl⟩
  · exact .inr ⟨nominal, rfl, .inl ⟨hbelow, rfl⟩⟩

theorem effectiveDomain_of_not_below (h : ¬ v.hierarchy.Below element.simpleName nominal.simpleName) :
    v.effectiveDomain (some nominal) element = nominal :=
  entityIs_iff.1 (.inr ⟨nominal, rfl, .inr ⟨h, rfl⟩⟩)

/-- An element type that is no entity of the repository is not below the entity type that there is. -/
theorem exists_of_not_belongs (h : ¬ v.Belongs domain element) :
    ∃ nominal, domain = some nominal ∧ ¬ v.hierarchy.Below element.simpleName nominal.simpleName := by
  cases domain with
  | none => exact absurd (.inl rfl) h
  | some nominal => exact ⟨nominal, rfl, fun hbelow => h (.inr ⟨nominal, rfl, hbelow⟩)⟩

/-- **The chosen entity type can be asked in place of the repository's.** If the element type is chosen, it is below
    itself; otherwise the type of the repository is chosen. -/
theorem below_effectiveDomain_iff :
    v.hierarchy.Below element.simpleName (v.effectiveDomain domain element).simpleName ↔ v.Belongs domain element := by
  by_cases h : v.Belongs domain element
  · rw [effectiveDomain_of_belongs h]
    exact iff_of_true (Hierarchy.below_refl _ _) h
  · obtain ⟨nominal, rfl, hnot⟩ := exists_of_not_belongs h
    rw [effectiveDomain_of_not_below hnot]
    exact iff_of_false hnot h

/-- The element type is chosen exactly if it is an entity of the repository. -/
theorem effectiveDomain_eq_element_iff : v.effectiveDomain domain element = element ↔ v.Belongs domain element := by
  constructor
  · intro h
    rw [← below_effectiveDomain_iff, h]
    exact Hierarchy.below_refl _ _
  · exact effectiveDomain_of_belongs

/-- Choosing again, between the chosen type and the element type, changes nothing. -/
theorem effectiveDomain_stable :
    v.effectiveDomain (some (v.effectiveDomain domain element)) element = v.effectiveDomain domain element := by
  by_cases h : v.Belongs domain element
  · have hchosen : v.Belongs (some (v.effectiveDomain domain element)) element :=
      .inr ⟨_, rfl, below_effectiveDomain_iff.2 h⟩
    rw [effectiveDomain_of_belongs hchosen, effectiveDomain_of_belongs h]
  · exact effectiveDomain_of_not_below fun hbelow => h (below_effectiveDomain_iff.1 hbelow)

/-! ## Bulks of values -/

/-- What reaches the last two kinds is a collection if it is a bulk of values, -/
theorem bulk_of_collection (h : FirstCase (v.kinds declared unwrapped entity) .collection) :
    v.Bulk declared unwrapped entity := by
  simp only [kinds, firstCase_cons, reduceCtorEq, and_false, false_or, and_true, not_true, false_and, or_false] at h
  exact h.2.2.2.2.2

/-- and a single value if it is none. -/
theorem not_bulk_of_single (h : FirstCase (v.kinds declared unwrapped entity) .single) :
    ¬ v.Bulk declared unwrapped entity := by
  simp only [kinds, firstCase_cons, reduceCtorEq, and_false, false_or] at h
  exact h.2.2.2.2.2.1

end Vocabulary

namespace Analyzer

open Vocabulary

variable {a : Analyzer} {repository : Repository} {m : Method} {d : Description}

/-- A description keeps the vocabulary, and what the result type means in it. -/
theorem meaning_of_describe (h : a.describe repository m = .ok d) : d.vocabulary = a.vocabulary ∧
    a.vocabulary.Meaning (repository.resultType m) repository.domain (repository.elementType m) d.resolution := by
  obtain ⟨log, hexit⟩ := a.exists_exit repository m 1
  rw [h] at hexit
  cases hexit with
  | sound _ hresolution _ => exact ⟨rfl, resolve_eq_ok_iff.1 hresolution⟩

/-- What is computed of a description that there is. -/
theorem exists_describe {α : Type} {f : Description → α} {x : α}
    (h : (a.describe repository m).toOption.map f = some x) : ∃ d, a.describe repository m = .ok d ∧ f d = x := by
  cases hd : a.describe repository m with
  | error r => simp [hd, Except.toOption] at h
  | ok d =>
      rw [hd] at h
      exact ⟨d, rfl, Option.some.inj h⟩

/-- **The entity type of a description, and whether entities are returned.** The element type is the entity type if it is
    an entity of the repository, and else the entity type is that of the repository. Exactly in the first case the method
    returns entities, and exactly then the two types are one. To choose again changes nothing. -/
theorem entity_of_describe (h : a.describe repository m = .ok d) :
    (a.vocabulary.Belongs repository.domain d.element → d.domain = d.element) ∧
    (¬ a.vocabulary.Belongs repository.domain d.element → repository.domain = some d.domain) ∧
    (d.isEntityResult = true ↔ a.vocabulary.Belongs repository.domain d.element) ∧
    (d.isEntityResult = true ↔ d.domain = d.element) ∧
    a.vocabulary.effectiveDomain (some d.domain) d.element = d.domain := by
  obtain ⟨hvocabulary, hmeaning⟩ := meaning_of_describe h
  have hdomain : a.vocabulary.effectiveDomain repository.domain d.element = d.domain := entityIs_iff.1 hmeaning.entity
  have hresult : d.isEntityResult = true ↔ a.vocabulary.Belongs repository.domain d.element := by
    rw [Description.isEntityResult, hvocabulary, Hierarchy.isTypeBelow_iff, ← hdomain]
    exact below_effectiveDomain_iff
  refine ⟨fun hbelongs => ?_, fun hbelongs => ?_, hresult, ?_, ?_⟩
  · rw [← hdomain, effectiveDomain_of_belongs hbelongs]
  · obtain ⟨nominal, hnominal, hnot⟩ := exists_of_not_belongs hbelongs
    rw [← hdomain, hnominal, effectiveDomain_of_not_below hnot]
  · rw [hresult, ← effectiveDomain_eq_element_iff, hdomain]
  · rw [← hdomain]
    exact effectiveDomain_stable

/-- An analyzer that knows administrators as users. -/
def staff : Analyzer := (Blueprint.builtin.withSubtype "Admin" "User").build

/-- A method that returns all elements of a type, later. -/
def findAllOf (element : String) : Method :=
  { name := "find_all", result := .generic "Future" [.generic "Vec" [.named element]] }

/-- In a repository of users administrators are entities of their own type, and summaries are no entities. -/
theorem entity_of_describe_staff :
    (∃ d, staff.describe { domain := some (.named "User") } (findAllOf "Admin") = .ok d ∧ d.element = .named "Admin" ∧
      d.domain = d.element ∧ d.isEntityResult = true) ∧
    ∃ d, staff.describe { domain := some (.named "User") } (findAllOf "Summary") = .ok d ∧ d.element = .named "Summary" ∧
      d.domain = .named "User" ∧ d.isEntityResult = false := by
  obtain ⟨admins, hadmins, helement⟩ : ∃ d, staff.describe { domain := some (.named "User") } (findAllOf "Admin") =
      .ok d ∧ d.element = .named "Admin" := exists_describe (by decide +kernel)
  obtain ⟨summaries, hsummaries, helement'⟩ : ∃ d, staff.describe { domain := some (.named "User") }
      (findAllOf "Summary") = .ok d ∧ d.element = .named "Summary" := exists_describe (by decide +kernel)
  constructor
  · obtain ⟨hchosen, -, hresult, -, -⟩ := entity_of_describe hadmins
    have hbelongs : staff.vocabulary.Belongs (some (.named "User")) admins.element := by
      rw [helement]
      exact .inr ⟨_, rfl, by decide +kernel⟩
    exact ⟨admins, hadmins, helement, hchosen hbelongs, hresult.2 hbelongs⟩
  · obtain ⟨-, hkept, hresult, -, -⟩ := entity_of_describe hsummaries
    have hother : ¬ staff.vocabulary.Belongs (some (.named "User")) summaries.element := by
      rw [helement']
      rintro (hnone | ⟨nominal, ⟨⟩, hbelow⟩)
      · cases hnone
      · exact absurd hbelow (by decide +kernel)
    refine ⟨summaries, hsummaries, helement', (Option.some.inj (hkept hother)).symm, ?_⟩
    exact Bool.eq_false_iff.2 fun h => hother (hresult.1 h)

/-- **A description answers whether a bulk of values is returned as its vocabulary does,** except that pages, slices and
    windows are no bulk. In particular the answers that single values and collections have by their shape are those of the
    vocabulary. -/
theorem bulk_of_describe (h : a.describe repository m = .ok d) :
    (d.isCollectionLike = true ↔ d.shape ∉ [Shape.page, Shape.slice, Shape.window] ∧
      a.vocabulary.isCollection d.resolution.declared d.resolution.unwrapped d.domain = true) ∧
    (d.shape = .single → a.vocabulary.isCollection d.resolution.declared d.resolution.unwrapped d.domain = false) ∧
    (d.shape = .collection → a.vocabulary.isCollection d.resolution.declared d.resolution.unwrapped d.domain = true) := by
  obtain ⟨hvocabulary, hmeaning⟩ := meaning_of_describe h
  have hkind := hmeaning.kind
  rw [← hmeaning.declared_eq] at hkind
  have hsingle : d.shape = .single →
      a.vocabulary.isCollection d.resolution.declared d.resolution.unwrapped d.domain = false := by
    intro hshape
    rw [show d.resolution.shape = .single from hshape] at hkind
    exact Bool.eq_false_iff.2 fun hbulk => not_bulk_of_single hkind (bulk_iff.2 hbulk)
  have hcollection : d.shape = .collection →
      a.vocabulary.isCollection d.resolution.declared d.resolution.unwrapped d.domain = true := by
    intro hshape
    rw [show d.resolution.shape = .collection from hshape] at hkind
    exact bulk_iff.1 (bulk_of_collection hkind)
  refine ⟨?_, hsingle, hcollection⟩
  rw [Description.isCollectionLike, hvocabulary]
  cases hshape : d.shape with
  | page => simp
  | slice => simp
  | window => simp
  | single => simp [hsingle hshape]
  | collection => simp [hcollection hshape]
  | stream => simp [Description.domain]
  | search => simp [Description.domain]

/-- A method that returns search hits, in the given container. -/
def searchIn (container : String) : Method :=
  { name := "search", parameters := [⟨some "page", .named "Pageable"⟩]
    result := .generic container [.generic "SearchResult" [.named "User"]] }

/-- Search hits in a list are a search and a bulk of values, and on a page they are neither. -/
theorem bulk_of_describe_hits :
    (∃ d, builtin.describe { domain := some (.named "User") } (searchIn "Vec") = .ok d ∧ d.shape = .search ∧
      d.isCollectionLike = true) ∧
    ∃ d, builtin.describe { domain := some (.named "User") } (searchIn "Page") = .ok d ∧ d.shape = .page ∧
      d.isCollectionLike = false := by
  obtain ⟨list, hlist, hkind⟩ : ∃ d, builtin.describe { domain := some (.named "User") } (searchIn "Vec") = .ok d ∧
      (d.shape, builtin.vocabulary.isCollection d.resolution.declared d.resolution.unwrapped d.domain) =
        (.search, true) := exists_describe (by decide +kernel)
  obtain ⟨page, hpage, hkind'⟩ : ∃ d, builtin.describe { domain := some (.named "User") } (searchIn "Page") = .ok d ∧
      d.shape = .page := exists_describe (by decide +kernel)
  obtain ⟨hshape, hbulk⟩ := Prod.mk.inj hkind
  refine ⟨⟨list, hlist, hshape, (bulk_of_describe hlist).1.2 ⟨?_, hbulk⟩⟩, page, hpage, hkind', ?_⟩
  · rw [hshape]
    decide
  · exact Bool.eq_false_iff.2 fun h => ((bulk_of_describe hpage).1.1 h).1 (by simp [hkind'])

end Analyzer

end QueryContract
