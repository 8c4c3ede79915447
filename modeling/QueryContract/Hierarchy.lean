import QueryContract.DeclaredType
import QueryContract.Marker

/-!
# `Hierarchy` — declared subtypes

A hierarchy is a list of declared pairs, a subtype and one of its direct supertypes. It may contain cycles. A name is
**below** another when declared steps lead from the one to the other, in any number.

* `Hierarchy.declare` — one more supertype of a name; a pair that is there already changes nothing;
* `Hierarchy.Below` — the relation, as an inductive definition;
* `Hierarchy.isBelow` — its decision: a search that follows each declared pair at most once, which is why it ends on
  cycles too (`isBelow_iff`);
* `isCollectionLike`, `isElementContainer` — the types whose first argument is what they hold.
-/

namespace QueryContract

/-- Declared pairs of a subtype and a direct supertype, in the order of their declaration. -/
structure Hierarchy where
  pairs : List (String × String)
deriving DecidableEq

namespace Hierarchy

/-! ## Declaring -/

/-- The hierarchy without declarations. -/
def empty : Hierarchy := ⟨[]⟩

/-- One more direct supertype of `sub`. -/
def declare (h : Hierarchy) (sub sup : String) : Hierarchy :=
  if (sub, sup) ∈ h.pairs then h else ⟨h.pairs ++ [(sub, sup)]⟩

/-- Several direct supertypes of `sub`, in order. -/
def declareAll (h : Hierarchy) (sub : String) (sups : List String) : Hierarchy :=
  sups.foldl (fun h sup => h.declare sub sup) h

/-- The direct supertypes of `name`, in the order of their declaration. -/
def supertypesOf (h : Hierarchy) (name : String) : List String :=
  (h.pairs.filter (·.1 = name)).map (·.2)

@[simp] theorem mem_pairs_declare {h : Hierarchy} {sub sup : String} {p : String × String} :
    p ∈ (h.declare sub sup).pairs ↔ p ∈ h.pairs ∨ p = (sub, sup) := by
  unfold declare
  split
  · next hm =>
    refine ⟨Or.inl, fun hp => hp.elim id fun e => ?_⟩
    rw [e]
    exact hm
  · simp

theorem mem_pairs_declareAll {h : Hierarchy} {sub : String} {sups : List String} {p : String × String} :
    p ∈ (h.declareAll sub sups).pairs ↔ p ∈ h.pairs ∨ ∃ sup ∈ sups, p = (sub, sup) := by
  unfold declareAll
  induction sups generalizing h with
  | nil => simp
  | cons s ss ih => simp [ih, or_assoc]

@[simp] theorem mem_supertypesOf {h : Hierarchy} {name sup : String} :
    sup ∈ h.supertypesOf name ↔ (name, sup) ∈ h.pairs := by
  simp [supertypesOf]

/-! ## Being below -/

/-- Declared steps lead from one name to another. -/
inductive Path (pairs : List (String × String)) : String → String → Prop
  | refl (a : String) : Path pairs a a
  | step {a b c : String} : (a, b) ∈ pairs → Path pairs b c → Path pairs a c

/-- `h.Below a b`: a value of type `a` can stand where `b` is expected. -/
def Below (h : Hierarchy) : String → String → Prop := Path h.pairs

theorem Path.trans {pairs : List (String × String)} {a b c : String} (hab : Path pairs a b)
    (hbc : Path pairs b c) : Path pairs a c := by
  induction hab with
  | refl => exact hbc
  | step hm _ ih => exact .step hm (ih hbc)

theorem Path.mono {pairs more : List (String × String)} {a b : String} (hsub : ∀ p ∈ pairs, p ∈ more)
    (h : Path pairs a b) : Path more a b := by
  induction h with
  | refl => exact .refl _
  | step hm _ ih => exact .step (hsub _ hm) ih

theorem below_refl (h : Hierarchy) (a : String) : h.Below a a := .refl a

theorem Below.trans {h : Hierarchy} {a b c : String} (hab : h.Below a b) (hbc : h.Below b c) :
    h.Below a c := Path.trans hab hbc

/-! ## The search -/

/-- The names one step above `x`. -/
def above (pairs : List (String × String)) (x : String) : List String :=
  (pairs.filter (·.1 = x)).map (·.2)

/-- The pairs that do not start at `x`. -/
def notFrom (pairs : List (String × String)) (x : String) : List (String × String) :=
  pairs.filter (·.1 ≠ x)

theorem length_above_add (pairs : List (String × String)) (x : String) :
    (above pairs x).length + (notFrom pairs x).length = pairs.length := by
  unfold above notFrom
  induction pairs with
  | nil => rfl
  | cons p ps ih => by_cases h : p.1 = x <;> simp_all <;> omega

/-- Whether `target` is reached from a name of the front. A name taken from the front uses up the pairs that start at
    it, so the pairs left and the front together shrink by one name at each step. -/
def reaches (target : String) (pairs : List (String × String)) : List String → Bool
  | [] => false
  | x :: front => x == target || reaches target (notFrom pairs x) (front ++ above pairs x)
termination_by front => pairs.length + front.length
decreasing_by
  have := length_above_add pairs x
  simp only [List.length_append, List.length_cons]
  omega

/-- A path either avoids the steps that start at `x`, or goes on from a name one step above `x`. -/
theorem Path.split_at {pairs : List (String × String)} {a t : String} (x : String) (h : Path pairs a t) :
    Path (notFrom pairs x) a t ∨ x = t ∨ ∃ y ∈ above pairs x, Path (notFrom pairs x) y t := by
  induction h with
  | refl a => exact Or.inl (.refl a)
  | @step a b c hm _ ih =>
    by_cases ha : a = x
    · rcases ih with h | h | h
      · exact Or.inr (Or.inr ⟨b, by simpa [above, ha] using hm, h⟩)
      · exact Or.inr (Or.inl h)
      · exact Or.inr (Or.inr h)
    · rcases ih with h | h | h
      · exact Or.inl (.step (by simpa [notFrom, ha] using hm) h)
      · exact Or.inr (Or.inl h)
      · exact Or.inr (Or.inr h)

theorem path_of_notFrom {pairs : List (String × String)} {x a b : String}
    (h : Path (notFrom pairs x) a b) : Path pairs a b :=
  h.mono fun _ hp => (List.mem_filter.1 hp).1

/-- The search finds a target exactly if a path leads to it from the front. -/
theorem reaches_iff {target : String} {pairs : List (String × String)} {front : List String} :
    reaches target pairs front = true ↔ ∃ x ∈ front, Path pairs x target := by
  fun_induction reaches target pairs front with
  | case1 => simp
  | case2 pairs x front ih =>
    rw [Bool.or_eq_true, beq_iff_eq, ih]
    constructor
    · rintro (rfl | ⟨y, hy, hp⟩)
      · exact ⟨_, by simp, .refl _⟩
      · rcases List.mem_append.1 hy with hf | ha
        · exact ⟨y, by simp [hf], path_of_notFrom hp⟩
        · exact ⟨x, by simp, .step (by simpa [above] using ha) (path_of_notFrom hp)⟩
    · rintro ⟨y, hy, hp⟩
      rcases hp.split_at x with h | h | ⟨z, hz, h⟩
      · rcases List.mem_cons.1 hy with rfl | hf
        · cases h with
          | refl => exact Or.inl rfl
          | step hm _ => simp [notFrom] at hm
        · exact Or.inr ⟨y, by simp [hf], h⟩
      · exact Or.inl h
      · exact Or.inr ⟨z, by simp [hz], h⟩

/-- Whether `sub` is below `sup`. -/
def isBelow (h : Hierarchy) (sub sup : String) : Bool := reaches sup h.pairs [sub]

/-- The search decides the relation. -/
theorem isBelow_iff {h : Hierarchy} {sub sup : String} : h.isBelow sub sup = true ↔ h.Below sub sup := by
  simp [isBelow, Below, reaches_iff]

instance (h : Hierarchy) (sub sup : String) : Decidable (h.Below sub sup) :=
  decidable_of_iff _ isBelow_iff

/-! ## Types -/

/-- Whether `sub` is below `sup`, by their simple names. -/
def isTypeBelow (h : Hierarchy) (sub sup : DeclaredType) : Bool := h.isBelow sub.simpleName sup.simpleName

/-- Arrays, `Iterable` itself, and what is below `Collection` or `Streamable`. -/
def isCollectionLike (h : Hierarchy) (t : DeclaredType) : Bool :=
  t.simpleName == arrayName || t.simpleName == Marker.iterable ||
    h.isBelow t.simpleName Marker.collection || h.isBelow t.simpleName Marker.streamable

/-- Collections, streams and search hits: what holds its elements in its first type argument. -/
def isElementContainer (h : Hierarchy) (t : DeclaredType) : Bool :=
  h.isCollectionLike t || h.isBelow t.simpleName Marker.stream ||
    h.isBelow t.simpleName Marker.searchResult

/-! ## Built-in declarations -/

/-- The names declared below `Collection` from the start. -/
def builtinCollections : List String :=
  ["List", "Set", "Vec", "VecDeque", "LinkedList", "HashSet", "BTreeSet", "IndexSet", "SmallVec", "Deque", "Queue",
    "SortedSet"]

/-- The hierarchy of the built-in container and parameter types. -/
def builtin : Hierarchy :=
  ⟨(Marker.collection, Marker.iterable) ::
    builtinCollections.map (·, Marker.collection) ++
    [ (Marker.streamable, Marker.iterable),
      (Marker.slice, Marker.streamable),
      (Marker.page, Marker.slice),
      (Marker.window, Marker.streamable),
      (Marker.searchResults, Marker.streamable),
      ("Iterator", Marker.stream),
      ("BoxStream", Marker.stream),
      ("PageRequest", Marker.pageable),
      ("KeysetScrollPosition", Marker.scrollPosition),
      ("OffsetScrollPosition", Marker.scrollPosition) ]⟩

end Hierarchy

end QueryContract
