import QueryContract.Proofs.FirstCase
import QueryContract.Proofs.Peeling

/-!
# `Proofs.Precedence` — the meaning of a result type, without the searches

`Vocabulary.resolve` decides by looking names up and by searching the declared subtypes. Here the same meaning is
stated over the relation `Hierarchy.Below` alone, one predicate for each question:

* `Registered`, `MultiValued`, `IsOptional` — what the table of wrappers says of a type;
* `CollectionLike`, `Layer`                 — what the hierarchy says of a type;
* `Searches`, `Bulk`                        — when a result is a search, and when it is a bulk of values;
* `kinds`                                   — the kinds of results in order of precedence;
* `Meaning`                                 — all that a declared type means.

Main statement: `resolve_follows_precedence`. Nothing is assumed of the hierarchy, which may have cycles, nor of the
names, which may be wrappers, containers and streams at once: only the order of `kinds` makes the kind unique.
-/

namespace QueryContract

/-! ## What the hierarchy says -/

namespace Hierarchy

/-- Arrays, `Iterable` itself, and what is below `Collection` or `Streamable`. -/
def CollectionLike (h : Hierarchy) (t : DeclaredType) : Prop :=
  t.simpleName = arrayName ∨ t.simpleName = Marker.iterable ∨ h.Below t.simpleName Marker.collection ∨
    h.Below t.simpleName Marker.streamable

theorem collectionLike_iff {h : Hierarchy} {t : DeclaredType} :
    h.CollectionLike t ↔ h.isCollectionLike t = true := by
  unfold CollectionLike isCollectionLike
  rw [Bool.or_eq_true, Bool.or_eq_true, Bool.or_eq_true, beq_iff_eq, beq_iff_eq, isBelow_iff, isBelow_iff, or_assoc,
    or_assoc]

theorem isTypeBelow_iff {h : Hierarchy} {sub sup : DeclaredType} :
    h.isTypeBelow sub sup = true ↔ h.Below sub.simpleName sup.simpleName := isBelow_iff

end Hierarchy

namespace Vocabulary

variable (v : Vocabulary)

/-! ## What the table of wrappers says -/

/-- The simple name of the type is that of a wrapper. -/
def Registered (t : DeclaredType) : Prop := ∃ w, v.wrappers.find? t.simpleName = some w

/-- The type is a wrapper that holds any number of values. -/
def MultiValued (t : DeclaredType) : Prop :=
  ∃ w, v.wrappers.find? t.simpleName = some w ∧ w.singleValued = false

/-- The type is an optional wrapper. -/
def IsOptional (t : DeclaredType) : Prop :=
  ∃ w, v.wrappers.find? t.simpleName = some w ∧ w.delivery = .optional

/-- The type is a wrapper, or a container of elements. -/
def Layer (t : DeclaredType) : Prop :=
  v.Registered t ∨ v.hierarchy.CollectionLike t ∨ v.hierarchy.Below t.simpleName Marker.stream ∨
    v.hierarchy.Below t.simpleName Marker.searchResult

/-- The type is a wrapper without a type argument. -/
def RawWrapper (t : DeclaredType) : Prop := v.Registered t ∧ t.args = []

variable {v} {t : DeclaredType}

theorem registered_iff : v.Registered t ↔ v.wrappers.isWrapper t = true := by
  unfold Registered WrapperTable.isWrapper
  rw [Option.isSome_iff_exists]

theorem multiValued_iff : v.MultiValued t ↔ v.wrappers.isMultiValued t = true := by
  unfold MultiValued WrapperTable.isMultiValued
  rw [Option.any_eq_true]
  simp only [Bool.not_eq_true']

theorem isOptional_iff : v.IsOptional t ↔ v.wrappers.isOptional t = true := by
  unfold IsOptional WrapperTable.isOptional
  rw [Option.any_eq_true]
  simp only [decide_eq_true_eq]

theorem layer_iff : v.Layer t ↔ v.isLayer t = true := by
  unfold Layer isLayer Hierarchy.isElementContainer
  rw [Bool.or_eq_true, Bool.or_eq_true, Bool.or_eq_true, ← registered_iff, ← Hierarchy.collectionLike_iff,
    Hierarchy.isBelow_iff, Hierarchy.isBelow_iff, or_assoc]

/-- A wrapper that is not single-valued is multi-valued. -/
theorem multiValued_of_registered (h : v.Registered t) : v.MultiValued t ↔ v.wrappers.isSingleValued t = false := by
  obtain ⟨w, hw⟩ := h
  unfold MultiValued WrapperTable.isSingleValued
  rw [hw, Option.any_some]
  constructor
  · rintro ⟨w', hw', hmulti⟩
    injection hw' with hw'
    rw [hw', hmulti]
  · intro hmulti
    exact ⟨w, rfl, hmulti⟩

/-! ## One layer taken off -/

variable (v)

/-- `u` is the declared type without its wrapper, or the declared type itself if it is no wrapper. -/
def Inside (declared u : DeclaredType) : Prop :=
  (v.Registered declared ∧ declared.firstArg? = some u) ∨ (¬v.Registered declared ∧ u = declared)

variable {v}

theorem firstArg?_eq_none_iff : t.firstArg? = none ↔ t.args = [] := by
  unfold DeclaredType.firstArg?
  rw [List.head?_eq_none_iff]

theorem unwrap_of_raw (h : v.RawWrapper t) : v.wrappers.unwrap t = .error (.missingTypeArgument t) := by
  unfold WrapperTable.unwrap
  rw [if_pos (registered_iff.1 h.1), firstArg?_eq_none_iff.2 h.2]

theorem unwrap_eq_ok_iff {u : DeclaredType} : v.wrappers.unwrap t = .ok u ↔ v.Inside t u := by
  unfold WrapperTable.unwrap Inside
  by_cases hreg : v.Registered t
  · rw [if_pos (registered_iff.1 hreg)]
    cases t.firstArg? with
    | none => simp [hreg]
    | some inner => simp [hreg]
  · have hwrapper : ¬v.wrappers.isWrapper t = true := fun h => hreg (registered_iff.2 h)
    rw [if_neg hwrapper]
    simp [hreg, eq_comm]

/-- Some type is inside unless the type is a raw wrapper. -/
theorem exists_inside (h : ¬v.RawWrapper t) : ∃ u, v.Inside t u := by
  by_cases hreg : v.Registered t
  · cases hfirst : t.firstArg? with
    | none => exact absurd ⟨hreg, firstArg?_eq_none_iff.1 hfirst⟩ h
    | some inner => exact ⟨inner, Or.inl ⟨hreg, hfirst⟩⟩
  · exact ⟨t, Or.inr ⟨hreg, rfl⟩⟩

/-! ## Kinds of results -/

variable (v)

/-- A search container, a collection or stream of search hits, or search hits in a multi-valued wrapper. -/
def Searches (declared unwrapped : DeclaredType) : Prop :=
  v.hierarchy.Below unwrapped.simpleName Marker.searchResults ∨
  ((v.hierarchy.CollectionLike unwrapped ∨ v.hierarchy.Below unwrapped.simpleName Marker.stream) ∧
    ∃ hit, unwrapped.firstArg? = some hit ∧ v.hierarchy.Below hit.simpleName Marker.searchResult) ∨
  (¬v.hierarchy.CollectionLike unwrapped ∧ ¬v.hierarchy.Below unwrapped.simpleName Marker.stream ∧
    v.MultiValued declared ∧ v.hierarchy.Below unwrapped.simpleName Marker.searchResult)

/-- What a multi-valued wrapper holds; or, unless it is an entity inside optional wrappers, a multi-valued wrapper or
    a collection that is no wrapper. -/
def Bulk (declared unwrapped domain : DeclaredType) : Prop :=
  v.MultiValued declared ∨
  ((∃ core, PeelsTo v.IsOptional unwrapped core ∧ ¬v.hierarchy.Below core.simpleName domain.simpleName) ∧
    (v.MultiValued unwrapped ∨ (¬v.Registered unwrapped ∧ v.hierarchy.CollectionLike unwrapped)))

/-- The kinds of results in order of precedence, each with its condition. -/
def kinds (declared unwrapped domain : DeclaredType) : List (Shape × Prop) :=
  [ (.page, v.hierarchy.Below unwrapped.simpleName Marker.page),
    (.slice, v.hierarchy.Below unwrapped.simpleName Marker.slice),
    (.window, v.hierarchy.Below unwrapped.simpleName Marker.window),
    (.search, v.Searches declared unwrapped),
    (.stream, v.hierarchy.Below unwrapped.simpleName Marker.stream),
    (.collection, v.Bulk declared unwrapped domain),
    (.single, True) ]

variable {v} {declared unwrapped domain : DeclaredType}

/-- The search test looks for a hit where the relation says. -/
theorem searches_iff : v.Searches declared unwrapped ↔ v.isSearch declared unwrapped = true := by
  have hholds : (v.hierarchy.isCollectionLike unwrapped || v.hierarchy.isBelow unwrapped.simpleName Marker.stream) =
      true ↔ v.hierarchy.CollectionLike unwrapped ∨ v.hierarchy.Below unwrapped.simpleName Marker.stream := by
    rw [Bool.or_eq_true, Hierarchy.collectionLike_iff, Hierarchy.isBelow_iff]
  unfold isSearch hit? Searches
  rw [Bool.or_eq_true, Hierarchy.isBelow_iff, Option.any_eq_true]
  refine or_congr_right ?_
  by_cases hcontainer : v.hierarchy.CollectionLike unwrapped ∨ v.hierarchy.Below unwrapped.simpleName Marker.stream
  · -- a collection or stream: the hit is its first argument
    rw [if_pos (hholds.2 hcontainer)]
    simp only [Hierarchy.isBelow_iff]
    constructor
    · rintro (⟨-, hhit⟩ | ⟨hcoll, hstream, -⟩)
      · exact hhit
      · exact absurd hcontainer (not_or.2 ⟨hcoll, hstream⟩)
    · intro hhit
      exact Or.inl ⟨hcontainer, hhit⟩
  · have hnot : ¬(v.hierarchy.isCollectionLike unwrapped ||
        v.hierarchy.isBelow unwrapped.simpleName Marker.stream) = true := fun h => hcontainer (hholds.1 h)
    obtain ⟨hcoll, hstream⟩ := not_or.1 hcontainer
    rw [if_neg hnot]
    by_cases hmulti : v.MultiValued declared
    · -- a multi-valued wrapper: the hit is what it held
      rw [if_pos (multiValued_iff.1 hmulti)]
      simp only [Hierarchy.isBelow_iff, Option.some.injEq, exists_eq_left']
      constructor
      · rintro (⟨h, -⟩ | ⟨-, -, -, hhit⟩)
        · exact absurd h hcontainer
        · exact hhit
      · intro hhit
        exact Or.inr ⟨hcoll, hstream, hmulti, hhit⟩
    · -- neither of them holds a hit
      have hsingle : ¬v.wrappers.isMultiValued declared = true := fun h => hmulti (multiValued_iff.2 h)
      rw [if_neg hsingle]
      constructor
      · rintro (⟨h, -⟩ | ⟨-, -, h, -⟩)
        · exact absurd h hcontainer
        · exact absurd h hmulti
      · rintro ⟨hit, hnone, -⟩
        cases hnone

/-- The optional wrappers peel to one type only, the one that the bulk test compares with the entity. -/
theorem exists_peeled_iff {P : DeclaredType → Prop} :
    (∃ core, PeelsTo v.IsOptional unwrapped core ∧ P core) ↔ P (v.wrappers.peelOptional unwrapped) := by
  have hpeel : ∀ core, PeelsTo v.IsOptional unwrapped core ↔ v.wrappers.peelOptional unwrapped = core := by
    intro core
    rw [WrapperTable.peelOptional_eq_peelWhile]
    exact DeclaredType.peelsTo_iff fun _ => isOptional_iff
  constructor
  · rintro ⟨core, hcore, hP⟩
    rw [(hpeel core).1 hcore]
    exact hP
  · intro hP
    exact ⟨_, (hpeel _).2 rfl, hP⟩

theorem bulk_iff : v.Bulk declared unwrapped domain ↔ v.isCollection declared unwrapped domain = true := by
  unfold Bulk isCollection
  rw [exists_peeled_iff]
  by_cases hmulti : v.MultiValued declared
  · -- what a multi-valued wrapper holds is a bulk, entity or not
    rw [if_pos (multiValued_iff.1 hmulti)]
    exact ⟨fun _ => rfl, fun _ => Or.inl hmulti⟩
  have hsingle : ¬v.wrappers.isMultiValued declared = true := fun h => hmulti (multiValued_iff.2 h)
  rw [if_neg hsingle, or_iff_right hmulti]
  by_cases hentity : v.hierarchy.Below (v.wrappers.peelOptional unwrapped).simpleName domain.simpleName
  · -- an entity inside optional wrappers is no bulk, even if it is a collection itself
    rw [if_pos (Hierarchy.isTypeBelow_iff.2 hentity)]
    exact ⟨fun h => absurd hentity h.1, nofun⟩
  have hother : ¬v.hierarchy.isTypeBelow (v.wrappers.peelOptional unwrapped) domain = true :=
    fun h => hentity (Hierarchy.isTypeBelow_iff.1 h)
  rw [if_neg hother, and_iff_right hentity]
  by_cases hreg : v.Registered unwrapped
  · rw [if_pos (registered_iff.1 hreg), multiValued_of_registered hreg, Bool.not_eq_true']
    constructor
    · rintro (hmany | ⟨hnone, -⟩)
      · exact hmany
      · exact absurd hreg hnone
    · exact Or.inl
  · have hwrapper : ¬v.wrappers.isWrapper unwrapped = true := fun h => hreg (registered_iff.2 h)
    rw [if_neg hwrapper, ← Hierarchy.collectionLike_iff, and_iff_right hreg]
    constructor
    · rintro (⟨w, hw, -⟩ | hcoll)
      · exact absurd ⟨w, hw⟩ hreg
      · exact hcoll
    · exact Or.inr

/-- **The shape is the first kind whose condition holds.** -/
theorem classify_iff {shape : Shape} :
    FirstCase (v.kinds declared unwrapped domain) shape ↔ v.classify declared unwrapped domain = shape := by
  refine firstCase_ite Hierarchy.isBelow_iff.symm ?_ shape
  refine firstCase_ite Hierarchy.isBelow_iff.symm ?_
  refine firstCase_ite Hierarchy.isBelow_iff.symm ?_
  refine firstCase_ite searches_iff ?_
  refine firstCase_ite Hierarchy.isBelow_iff.symm ?_
  refine firstCase_ite bulk_iff ?_
  exact fun _ => firstCase_otherwise

/-! ## Meanings -/

variable (v)

/-- The element type is the one known beforehand, or else what is left when all layers are taken off. -/
def ElementIs (override : Option DeclaredType) (unwrapped element : DeclaredType) : Prop :=
  override = some element ∨ (override = none ∧ PeelsTo v.Layer unwrapped element)

/-- The entity type is the repository's if it has one that the element type is not below, and else the element type. -/
def EntityIs (domain : Option DeclaredType) (element entity : DeclaredType) : Prop :=
  (domain = none ∧ entity = element) ∨
  ∃ nominal, domain = some nominal ∧
    ((v.hierarchy.Below element.simpleName nominal.simpleName ∧ entity = element) ∨
      (¬v.hierarchy.Below element.simpleName nominal.simpleName ∧ entity = nominal))

/-- **The meaning of a declared type.** `domain` is the entity type of the repository, `override` the element type
    where it is known beforehand. -/
structure Meaning (declared : DeclaredType) (domain override : Option DeclaredType) (r : Resolution) : Prop where
  declared_eq : r.declared = declared
  /-- Exactly one wrapper layer is taken off. -/
  inside : v.Inside declared r.unwrapped
  element : v.ElementIs override r.unwrapped r.element
  entity : v.EntityIs domain r.element r.domain
  kind : FirstCase (v.kinds declared r.unwrapped r.domain) r.shape

variable {v} {override nominal : Option DeclaredType} {element entity : DeclaredType}

theorem elementIs_iff : v.ElementIs override unwrapped element ↔ override.getD (v.elementType unwrapped) = element := by
  unfold ElementIs
  cases override with
  | some known =>
      rw [Option.getD_some, Option.some.injEq]
      exact or_iff_left fun h => nomatch h.1
  | none =>
      rw [Option.getD_none, elementType_eq_peelWhile, ← DeclaredType.peelsTo_iff fun _ => layer_iff]
      exact (or_iff_right nofun).trans (and_iff_right rfl)

theorem entityIs_iff : v.EntityIs nominal element entity ↔ v.effectiveDomain nominal element = entity := by
  unfold EntityIs effectiveDomain
  cases nominal with
  | none =>
      constructor
      · rintro (⟨-, rfl⟩ | ⟨known, hknown, -⟩)
        · rfl
        · cases hknown
      · intro h
        exact Or.inl ⟨rfl, h.symm⟩
  | some known =>
      by_cases hbelow : v.hierarchy.Below element.simpleName known.simpleName
      · have htest : v.hierarchy.isTypeBelow element known = true := Hierarchy.isTypeBelow_iff.2 hbelow
        simp only [htest, if_true]
        constructor
        · rintro (⟨hnone, -⟩ | ⟨_, hknown, ⟨-, rfl⟩ | ⟨hnot, -⟩⟩)
          · cases hnone
          · rfl
          · injection hknown with hknown
            exact absurd hbelow (hknown ▸ hnot)
        · intro h
          exact Or.inr ⟨known, rfl, Or.inl ⟨hbelow, h.symm⟩⟩
      · have htest : ¬v.hierarchy.isTypeBelow element known = true := fun h => hbelow (Hierarchy.isTypeBelow_iff.1 h)
        simp only [htest]
        constructor
        · rintro (⟨hnone, -⟩ | ⟨_, hknown, ⟨h, -⟩ | ⟨-, rfl⟩⟩)
          · cases hnone
          · injection hknown with hknown
            exact absurd (hknown ▸ h) hbelow
          · injection hknown
        · intro h
          exact Or.inr ⟨known, rfl, Or.inr ⟨hbelow, h.symm⟩⟩

/-! ## The contract of resolution -/

theorem resolve_of_raw (h : v.RawWrapper t) : v.resolve t nominal override = .error (.missingTypeArgument t) := by
  unfold resolve
  rw [unwrap_of_raw h]

theorem resolve_of_inside {u : DeclaredType} (h : v.Inside t u) :
    v.resolve t nominal override =
      .ok ⟨t, u, override.getD (v.elementType u), v.effectiveDomain nominal (override.getD (v.elementType u)),
        v.classify t u (v.effectiveDomain nominal (override.getD (v.elementType u)))⟩ := by
  unfold resolve
  rw [unwrap_eq_ok_iff.2 h]

/-- A type is refused exactly if it is a raw wrapper, and the refusal names it. -/
theorem resolve_eq_error_iff {reason : Malformed} :
    v.resolve t nominal override = .error reason ↔ v.RawWrapper t ∧ reason = .missingTypeArgument t := by
  constructor
  · intro h
    by_cases hraw : v.RawWrapper t
    · rw [resolve_of_raw hraw] at h
      injection h with h
      exact ⟨hraw, h.symm⟩
    · obtain ⟨u, hu⟩ := exists_inside hraw
      rw [resolve_of_inside hu] at h
      cases h
  · rintro ⟨hraw, rfl⟩
    exact resolve_of_raw hraw

/-- A type that is not refused means exactly one thing. -/
theorem resolve_eq_ok_iff {r : Resolution} :
    v.resolve t nominal override = .ok r ↔ v.Meaning t nominal override r := by
  constructor
  · intro h
    by_cases hraw : v.RawWrapper t
    · rw [resolve_of_raw hraw] at h
      cases h
    · obtain ⟨u, hu⟩ := exists_inside hraw
      rw [resolve_of_inside hu] at h
      injection h with h
      subst h
      exact ⟨rfl, hu, elementIs_iff.2 rfl, entityIs_iff.2 rfl, classify_iff.2 rfl⟩
  · intro h
    have hkind := classify_iff.1 h.kind
    rw [resolve_of_inside h.inside, elementIs_iff.1 h.element, entityIs_iff.1 h.entity, hkind]
    obtain ⟨rfl, -, -, -, -⟩ := h
    rfl

/-- **A result type means what the precedence of kinds says.** It is refused exactly if it is a wrapper without a type
    argument. Otherwise one wrapper layer is taken off, the element and the entity type are found, and the shape is the
    first kind in order of precedence whose condition on these types holds. -/
theorem resolve_follows_precedence (v : Vocabulary) (declared : DeclaredType) (domain override : Option DeclaredType) :
    (∀ reason, v.resolve declared domain override = .error reason ↔
      v.RawWrapper declared ∧ reason = .missingTypeArgument declared) ∧
    ∀ r, v.resolve declared domain override = .ok r ↔ v.Meaning declared domain override r :=
  ⟨fun _ => resolve_eq_error_iff, fun _ => resolve_eq_ok_iff⟩

end Vocabulary

end QueryContract
