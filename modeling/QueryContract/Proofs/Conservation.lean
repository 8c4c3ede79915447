import QueryContract.Proofs.Construction

/-!
# `Proofs.Conservation` — additions that change nothing

A name that a method has nothing to do with can be made a wrapper and a subtype of anything: the method is described as
before. The name may still be that of the entity type of the repository, or one of the built-in names. The pairs that
are added start at that name, so a path that leads to it nowhere meets none of them, although the hierarchy may have
cycles and the additions may close new ones.

* `DeclaredType.names`        — the simple names of a type and of all its arguments;
* `Hierarchy.Misses`          — a name is neither one of these nor above one of them;
* `Path.conserved`            — paths that miss a name, when pairs are added that start at it;
* `Method.Misses`             — a method that has nothing to do with a name;
* `describe_extended`         — the main statement.
-/

namespace QueryContract

/-! ## Names of types -/

namespace DeclaredType

mutual

/-- The simple names of a type and of all its arguments, at any depth. -/
def names : DeclaredType → List String
  | mk path args => simpleNameOf path :: namesAll args

/-- The names of each of several types. -/
def namesAll : List DeclaredType → List String
  | [] => []
  | t :: ts => names t ++ namesAll ts

end

theorem simpleName_mem_names (t : DeclaredType) : t.simpleName ∈ t.names := by
  obtain ⟨path, args⟩ := t
  exact List.mem_cons_self

/-- The names of the first argument are among those of the type. -/
theorem names_of_firstArg? {t inner : DeclaredType} (h : t.firstArg? = some inner) {x : String} (hx : x ∈ inner.names) :
    x ∈ t.names := by
  obtain ⟨path, args⟩ := t
  cases args with
  | nil => cases h
  | cons first more =>
      obtain rfl : first = inner := Option.some.inj h
      exact List.mem_cons_of_mem _ (List.mem_append_left _ hx)

end DeclaredType

/-! ## Names that are missed -/

namespace Hierarchy

/-- The name is neither one of the names of the type nor above one of them. -/
def Misses (h : Hierarchy) (name : String) (t : DeclaredType) : Prop := ∀ x ∈ t.names, ¬h.Below x name

/-- **Paths that miss a name are conserved.** If no path leads from `a` to `name`, then pairs that start at `name` lead
    from `a` nowhere new. -/
theorem Path.conserved {pairs more : List (String × String)} {name a b : String}
    (hmore : ∀ p ∈ more, p ∈ pairs ∨ p.1 = name) (h : Path more a b) (hmiss : ¬Path pairs a name) :
    Path pairs a b := by
  induction h with
  | refl a => exact .refl a
  | @step a c b hstep _ ih =>
      rcases hmore _ hstep with hold | hnew
      · -- an old pair: from where it leads the name is missed as well
        have hmiss' : ¬Path pairs c name := fun hc => hmiss (.step hold hc)
        exact .step hold (ih hmiss')
      · -- a new pair starts at the name itself
        obtain rfl : a = name := hnew
        exact absurd (.refl a) hmiss

/-- So the enlarged hierarchy decides the same about such names. -/
theorem isBelow_conserved {h h' : Hierarchy} {name a : String} (hold : ∀ p ∈ h.pairs, p ∈ h'.pairs)
    (hnew : ∀ p ∈ h'.pairs, p ∈ h.pairs ∨ p.1 = name) (hmiss : ¬h.Below a name) (sup : String) :
    h.isBelow a sup = h'.isBelow a sup := by
  rw [Bool.eq_iff_iff, isBelow_iff, isBelow_iff]
  constructor
  · exact Path.mono hold
  · intro hpath
    exact Path.conserved hnew hpath hmiss

end Hierarchy

/-- A name under which nothing is registered is known as before. -/
theorem WrapperTable.find?_registered_of_ne {entries : List (String × Wrapper)} {name x : String}
    (hentries : ∀ entry ∈ entries, entry.1 = name) (hx : x ≠ name) (t : WrapperTable) :
    (entries.foldl (fun t entry => t.register entry.1 entry.2) t).find? x = t.find? x := by
  induction entries generalizing t with
  | nil => rfl
  | cons entry entries ih =>
      have hname : entry.1 = name := hentries entry List.mem_cons_self
      have hrest : ∀ e ∈ entries, e.1 = name := fun e he => hentries e (List.mem_cons_of_mem entry he)
      rw [List.foldl_cons, ih hrest, find?_register, hname, if_neg hx]

/-! ## Descriptions -/

namespace Vocabulary

variable {v : Vocabulary} {name : String} {additions : List Addition}

/-- **Additions under a name are not noticed by types that miss it.** -/
theorem agreeOn_extended (c : Option Classifier) (hname : ∀ x ∈ additions, x.name = name) :
    v.AgreeOn ((Blueprint.mk v c).extended additions).vocabulary (v.hierarchy.Misses name) where
  wrapper {t} ht := by
    have hne : t.simpleName ≠ name := by
      intro heq
      exact ht _ t.simpleName_mem_names (heq ▸ Hierarchy.below_refl _ _)
    have hentries : ∀ entry ∈ additions.filterMap Addition.wrapper?, entry.1 = name := by
      intro entry hentry
      obtain ⟨x, hx, hentry⟩ := List.mem_filterMap.1 hentry
      cases x with
      | wrapper n w =>
          obtain rfl : (n, w) = entry := Option.some.inj hentry
          exact hname _ hx
      | subtype sub sup => cases hentry
    rw [Blueprint.wrappers_extended, WrapperTable.find?_registered_of_ne hentries hne]
  below {t} ht sup := by
    refine Hierarchy.isBelow_conserved ?_ ?_ (ht _ t.simpleName_mem_names) sup
    · intro p hp
      exact (Blueprint.mem_extended _ _ p).2 (.inl hp)
    · intro p hp
      rcases (Blueprint.mem_extended _ _ p).1 hp with hold | hnew
      · exact .inl hold
      · exact .inr (hname _ hnew)
  inside ht hinner x hx := ht x (DeclaredType.names_of_firstArg? hinner hx)

end Vocabulary

/-- The method has nothing to do with the name: the types of its parameters, its result type and the element type that
    is known beforehand all miss it. -/
structure Method.Misses (h : Hierarchy) (name : String) (repository : Repository) (m : Method) : Prop where
  parameters : ∀ p ∈ Analyzer.resolvedParameters repository m, h.Misses name p.type
  result : h.Misses name (repository.resultType m)
  element : ∀ t, repository.elementType m = some t → h.Misses name t

/-- **Additions under a name are conservative.** If a method has nothing to do with a name, then making it a wrapper and
    a subtype of anything, any number of times, leaves the description of the method as it was: the same parameters and
    the same meaning, or the same rejection. -/
theorem Blueprint.describe_extended {v : Vocabulary} {name : String} {repository : Repository} {m : Method}
    {additions : List Addition} (hname : ∀ x ∈ additions, x.name = name)
    (hmiss : m.Misses v.hierarchy name repository) :
    ExceptRel Eq Description.Agrees ((Blueprint.mk v none).build.describe repository m)
      (((Blueprint.mk v none).extended additions).build.describe repository m) := by
  rw [Blueprint.extended_of_open]
  exact (Vocabulary.agreeOn_extended none hname).describe hmiss.parameters hmiss.result hmiss.element

/-- A repository of users, -/
def userRepository : Repository := .ofBindings (some "Users") (some (.named "User")) []

/-- a method of it that returns pages of names, -/
def findNames : Method :=
  { name := "find_names", parameters := [⟨some "page", .named "PageRequest"⟩, ⟨none, .generic "Vec" [.named "Key"]⟩],
    result := .generic "Future" [.generic "Page" [.named "Name"]] }

/-- and things said about users, some of them absurd. -/
def userAdditions : List Addition :=
  [.wrapper "User" ⟨.async, true⟩, .subtype "User" "Page", .subtype "User" "Pageable", .subtype "User" "User",
    .wrapper "User" ⟨.reactive, false⟩, .subtype "User" "Name"]

/-- Users are the entity type of the repository, but the method has nothing to do with them. -/
theorem describe_extended_user :
    ((∀ x ∈ userAdditions, x.name = "User") ∧ findNames.Misses Hierarchy.builtin "User" userRepository) ∧
    ExceptRel Eq Description.Agrees ((Blueprint.mk .builtin none).build.describe userRepository findNames)
      (((Blueprint.mk .builtin none).extended userAdditions).build.describe userRepository findNames) := by
  have hname : ∀ x ∈ userAdditions, x.name = "User" := by decide
  have hmiss : findNames.Misses Vocabulary.builtin.hierarchy "User" userRepository := by
    refine ⟨?_, ?_, nofun⟩
    · unfold Hierarchy.Misses
      decide +kernel
    · unfold Hierarchy.Misses
      decide +kernel
  exact ⟨⟨hname, hmiss⟩, Blueprint.describe_extended hname hmiss⟩

end QueryContract
