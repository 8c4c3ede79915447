import QueryContract.Proofs.Conservation
import QueryContract.Proofs.Elements
import QueryContract.Proofs.Unwrapping

/-!
# `Proofs.Mirrors` — names that are known in the same way

A vocabulary can be given names of its own beside the built-in ones. What a type means then hangs on nothing but what is
registered under its simple name and what that name is below: if two names are known in the same way, and no rule refers
to either of them, the types with these names mean the same, up to the name itself.

* `Marker.Ordinary`, `DeclaredType.Avoids` — names that no rule and no other type refers to;
* `Vocabulary.Mirrors`                     — two names that are known in the same way;
* `Mirrors.of_supertypes`                  — names with the same entries are;
* `DeclaredType.renameHead`, `Counterpart` — a type with the other name in place of its own;
* `resolve_withName`                       — the main statement.

The name is not only looked up. A type with it may be the element type of the result, and is then chosen as its entity
type, with which the result is compared again; there the comparison is that of a name with itself.
-/

namespace QueryContract

/-! ## Names -/

namespace Marker

/-- The names that rules refer to. -/
def all : List String :=
  [iterable, collection, streamable, page, slice, window, searchResults, searchResult, stream, pageable, sort, limit,
    scrollPosition]

/-- No rule refers to the name, and it is not that of arrays. -/
def Ordinary (name : String) : Prop := name ∉ all ∧ name ≠ arrayName

instance (name : String) : Decidable (Ordinary name) := inferInstanceAs (Decidable (_ ∧ _))

theorem Ordinary.ne {name marker : String} (h : Ordinary name) (hmarker : marker ∈ all) : marker ≠ name := by
  rintro rfl
  exact h.1 hmarker

end Marker

namespace DeclaredType

variable {a b : String} {t inner : DeclaredType}

/-- Neither of the names is one of the names of the type. -/
def Avoids (a b : String) (t : DeclaredType) : Prop := a ∉ t.names ∧ b ∉ t.names

instance (a b : String) (t : DeclaredType) : Decidable (t.Avoids a b) := inferInstanceAs (Decidable (_ ∧ _))

theorem Avoids.simpleName_ne (h : t.Avoids a b) : t.simpleName ≠ a ∧ t.simpleName ≠ b := by
  have hmem := t.simpleName_mem_names
  exact ⟨fun ha => h.1 (ha ▸ hmem), fun hb => h.2 (hb ▸ hmem)⟩

theorem Avoids.firstArg? (h : t.Avoids a b) (hfirst : t.firstArg? = some inner) : inner.Avoids a b :=
  ⟨fun hmem => h.1 (names_of_firstArg? hfirst hmem), fun hmem => h.2 (names_of_firstArg? hfirst hmem)⟩

/-- The type with another simple name. -/
def withName (name : String) (t : DeclaredType) : DeclaredType := mk (t.path.dropLast ++ [name]) t.args

@[simp] theorem simpleName_withName (name : String) (t : DeclaredType) : (t.withName name).simpleName = name := by
  simp [withName, simpleNameOf]

@[simp] theorem firstArg?_withName (name : String) (t : DeclaredType) : (t.withName name).firstArg? = t.firstArg? := rfl

/-- The type with `b` in place of its simple name, if that is `a`. The names of its arguments are left as they are. -/
def renameHead (a b : String) (t : DeclaredType) : DeclaredType := if t.simpleName = a then t.withName b else t

/-- A type with the one name and the same type with the other; or any type that has nothing to do with either. -/
inductive Counterpart (a b : String) : DeclaredType → DeclaredType → Prop
  | head {t : DeclaredType} : t.simpleName = a → Counterpart a b t (t.withName b)
  | other {t : DeclaredType} : t.Avoids a b → Counterpart a b t t

theorem Counterpart.renamed {t' : DeclaredType} (h : Counterpart a b t t') : t' = t.renameHead a b := by
  cases h with
  | head hname => rw [renameHead, if_pos hname]
  | other havoids => rw [renameHead, if_neg havoids.simpleName_ne.1]

end DeclaredType

/-- What peeling arrives at is all that is kept by taking first arguments. -/
theorem PeelsTo.keeps {layer P : DeclaredType → Prop} {t core : DeclaredType} (h : PeelsTo layer t core)
    (hP : ∀ {u inner}, P u → u.firstArg? = some inner → P inner) (ht : P t) : P core := by
  induction h with
  | bare _ => exact ht
  | raw _ => exact ht
  | inside _ hfirst _ ih => exact ih (hP ht hfirst)

/-- The element type of a type that avoids two names avoids them too. -/
theorem DeclaredType.Avoids.elementType {a b : String} {t : DeclaredType} (h : t.Avoids a b) (v : Vocabulary) :
    (v.elementType t).Avoids a b :=
  (v.peelsTo_elementType t).keeps Avoids.firstArg? h

/-! ## Types that are no wrappers -/

namespace Vocabulary

variable {v : Vocabulary} {t entity : DeclaredType}

theorem elementType_of_innermost (h : v.Innermost t) : v.elementType t = t :=
  elementType_iff.1 (h.elim .raw .bare)

theorem isMultiValued_of_bare (h : ¬v.Registered t) : v.wrappers.isMultiValued t = false :=
  Bool.eq_false_iff.2 fun hmulti => h (multiValued_iff.2 hmulti).registered

/-- There is no optional wrapper to be taken off, so the type itself is compared with the entity type. -/
theorem isCollection_of_bare (h : ¬v.Registered t) :
    v.isCollection t t entity = (!v.hierarchy.isTypeBelow t entity && v.hierarchy.isCollectionLike t) := by
  have hoptional : ¬v.IsOptional t := fun ⟨w, hw, _⟩ => h ⟨w, hw⟩
  have hpeeled : v.wrappers.peelOptional t = t :=
    (exists_peeled_iff (P := (· = t))).1 ⟨t, .bare hoptional, rfl⟩
  have hwrapper : v.wrappers.isWrapper t = false := Bool.eq_false_iff.2 fun hw => h (registered_iff.2 hw)
  unfold isCollection
  rw [isMultiValued_of_bare h, hpeeled, hwrapper]
  cases v.hierarchy.isTypeBelow t entity <;> simp

end Vocabulary

/-! ## Names that are known in the same way -/

open DeclaredType

namespace Vocabulary

/-- **Two names that are known in the same way:** no rule refers to either of them, the same wrapper or none is
    registered under both, and they are below the same other names. -/
structure Mirrors (v : Vocabulary) (a b : String) : Prop where
  ordinary : Marker.Ordinary a
  ordinary' : Marker.Ordinary b
  wrapper : v.wrappers.find? a = v.wrappers.find? b
  below : ∀ sup, sup ≠ a → sup ≠ b → v.hierarchy.isBelow a sup = v.hierarchy.isBelow b sup

namespace Mirrors

variable {v : Vocabulary} {a b : String}

/-- What a name is below, apart from itself, is what one of its direct supertypes is below. -/
theorem below_of_supertypes {h : Hierarchy} (hsupertypes : ∀ sup, sup ∈ h.supertypesOf a → sup ∈ h.supertypesOf b)
    {sup : String} (hne : sup ≠ a) (hbelow : h.Below a sup) : h.Below b sup := by
  cases hbelow with
  | refl => exact absurd rfl hne
  | @step _ c _ hstep hpath =>
      have hdirect : c ∈ h.supertypesOf b := hsupertypes c (Hierarchy.mem_supertypesOf.2 hstep)
      exact .step (Hierarchy.mem_supertypesOf.1 hdirect) hpath

/-- Ordinary names with the same wrapper and the same direct supertypes mirror one another. -/
theorem of_supertypes (ha : Marker.Ordinary a) (hb : Marker.Ordinary b)
    (hwrapper : v.wrappers.find? a = v.wrappers.find? b)
    (hsupertypes : ∀ sup, sup ∈ v.hierarchy.supertypesOf a ↔ sup ∈ v.hierarchy.supertypesOf b) : v.Mirrors a b where
  ordinary := ha
  ordinary' := hb
  wrapper := hwrapper
  below sup hne hne' := by
    rw [Bool.eq_iff_iff, Hierarchy.isBelow_iff, Hierarchy.isBelow_iff]
    exact ⟨below_of_supertypes (fun s => (hsupertypes s).1) hne, below_of_supertypes (fun s => (hsupertypes s).2) hne'⟩

variable {t : DeclaredType} (h : v.Mirrors a b) (ht : t.simpleName = a)

include h ht

/-! ## Questions about a type -/

theorem find?_withName : v.wrappers.find? (t.withName b).simpleName = v.wrappers.find? t.simpleName := by
  rw [simpleName_withName, ht, h.wrapper]

theorem registered_withName : v.Registered (t.withName b) ↔ v.Registered t := by
  unfold Registered
  rw [h.find?_withName ht]

theorem multiValued_withName : v.MultiValued (t.withName b) ↔ v.MultiValued t := by
  unfold MultiValued
  rw [h.find?_withName ht]

theorem isBelow_withName {sup : String} (hsup : sup ≠ a ∧ sup ≠ b) :
    v.hierarchy.isBelow (t.withName b).simpleName sup = v.hierarchy.isBelow t.simpleName sup := by
  rw [simpleName_withName, ht, h.below sup hsup.1 hsup.2]

theorem isBelow_marker {marker : String} (hmarker : marker ∈ Marker.all) :
    v.hierarchy.isBelow (t.withName b).simpleName marker = v.hierarchy.isBelow t.simpleName marker :=
  h.isBelow_withName ht ⟨h.ordinary.ne hmarker, h.ordinary'.ne hmarker⟩

/-- Neither name is that of arrays or of `Iterable`, the two names that are compared with and not looked up. -/
theorem isCollectionLike_withName : v.hierarchy.isCollectionLike (t.withName b) = v.hierarchy.isCollectionLike t := by
  have hplain : ∀ {name : String}, Marker.Ordinary name →
      (name == arrayName) = false ∧ (name == Marker.iterable) = false :=
    fun hname => ⟨beq_eq_false_iff_ne.2 hname.2, beq_eq_false_iff_ne.2 (hname.ne (by decide)).symm⟩
  unfold Hierarchy.isCollectionLike
  rw [h.isBelow_marker ht (by decide), h.isBelow_marker ht (by decide), simpleName_withName, ht, (hplain h.ordinary).1,
    (hplain h.ordinary).2, (hplain h.ordinary').1, (hplain h.ordinary').2]

theorem layer_withName : v.Layer (t.withName b) ↔ v.Layer t := by
  unfold Layer
  rw [h.registered_withName ht, Hierarchy.collectionLike_iff, Hierarchy.collectionLike_iff,
    h.isCollectionLike_withName ht, ← Hierarchy.isBelow_iff, ← Hierarchy.isBelow_iff, ← Hierarchy.isBelow_iff,
    ← Hierarchy.isBelow_iff, h.isBelow_marker ht (by decide), h.isBelow_marker ht (by decide)]

/-- Compared with a type that has nothing to do with the names, both are below it or neither; compared with what has the
    same name, both are. -/
theorem isTypeBelow_withName {u u' : DeclaredType} (hu : Counterpart a b u u') :
    v.hierarchy.isTypeBelow (t.withName b) u' = v.hierarchy.isTypeBelow t u := by
  cases hu with
  | head hname =>
      have hself : ∀ name, v.hierarchy.isBelow name name = true := fun name =>
        Hierarchy.isBelow_iff.2 (Hierarchy.below_refl _ name)
      unfold Hierarchy.isTypeBelow
      rw [simpleName_withName, simpleName_withName, ht, hname, hself, hself]
  | other havoids => exact h.isBelow_withName ht havoids.simpleName_ne

omit ht in
/-- A type and its counterpart are below the same types that have nothing to do with the names. -/
theorem isTypeBelow_counterpart {t' u : DeclaredType} (hc : Counterpart a b t t') (hu : u.Avoids a b) :
    v.hierarchy.isTypeBelow t' u = v.hierarchy.isTypeBelow t u := by
  cases hc with
  | head hname => exact h.isTypeBelow_withName hname (.other hu)
  | other _ => rfl

/-! ## Elements, entities and shapes -/

/-- The element types of both are that of their first argument, or the types themselves. -/
theorem elementType_withName (hargs : ∀ arg ∈ t.args, arg.Avoids a b) :
    Counterpart a b (v.elementType t) (v.elementType (t.withName b)) := by
  by_cases hstops : v.Innermost t
  · have hstops' : v.Innermost (t.withName b) := hstops.imp id (mt (h.layer_withName ht).1)
    rw [elementType_of_innermost hstops, elementType_of_innermost hstops']
    exact .head ht
  · obtain ⟨hargs', hlayer⟩ : t.args ≠ [] ∧ v.Layer t := by simpa [Innermost, not_or] using hstops
    obtain ⟨inner, hfirst⟩ := Option.isSome_iff_exists.1 (List.isSome_head?.2 hargs')
    rw [elementType_layer hlayer hfirst, elementType_layer ((h.layer_withName ht).2 hlayer) hfirst]
    exact .other ((hargs inner (List.mem_of_head? hfirst)).elementType v)

/-- If the type is no wrapper, and so its own unwrapped type, its shape is that of its counterpart, with an entity type
    and the counterpart of that. -/
theorem classify_withName (hbare : ¬v.Registered t) {entity entity' : DeclaredType}
    (hentity : Counterpart a b entity entity') :
    v.classify (t.withName b) (t.withName b) entity' = v.classify t t entity := by
  have hbare' : ¬v.Registered (t.withName b) := mt (h.registered_withName ht).1 hbare
  have hmarkers : ∀ marker ∈ Marker.all, v.hierarchy.isBelow (t.withName b).simpleName marker =
      v.hierarchy.isBelow t.simpleName marker := fun _ => h.isBelow_marker ht
  have hcollection : v.isCollection (t.withName b) (t.withName b) entity' = v.isCollection t t entity := by
    rw [isCollection_of_bare hbare, isCollection_of_bare hbare', h.isTypeBelow_withName ht hentity,
      h.isCollectionLike_withName ht]
  have hsearch : v.isSearch (t.withName b) (t.withName b) = v.isSearch t t := by
    unfold isSearch hit?
    rw [isMultiValued_of_bare hbare, isMultiValued_of_bare hbare', h.isCollectionLike_withName ht,
      hmarkers _ (by decide), hmarkers _ (by decide), firstArg?_withName]
    simp only [Bool.false_eq_true, if_false]
  unfold classify
  rw [hmarkers _ (by decide), hmarkers _ (by decide), hmarkers _ (by decide), hmarkers _ (by decide), hsearch,
    hcollection]

end Mirrors

/-! ## Meanings -/

/-- The same meaning, with `b` for `a` wherever this is the name of a type in it. -/
structure Renamed (a b : String) (r r' : Resolution) : Prop where
  declared : r'.declared = r.declared.renameHead a b
  unwrapped : r'.unwrapped = r.unwrapped.renameHead a b
  element : r'.element = r.element.renameHead a b
  domain : r'.domain = r.domain.renameHead a b
  shape : r'.shape = r.shape

variable {v : Vocabulary} {a b : String} {declared : DeclaredType} {domain override : Option DeclaredType}

/-- The entity types of a method: an element type and its counterpart, or the entity type of the repository. -/
theorem Mirrors.effectiveDomain (h : v.Mirrors a b) (hdomain : ∀ entity ∈ domain, entity.Avoids a b)
    {element element' : DeclaredType} (helement : Counterpart a b element element') :
    Counterpart a b (v.effectiveDomain domain element) (v.effectiveDomain domain element') := by
  unfold Vocabulary.effectiveDomain
  cases domain with
  | none => exact helement
  | some entity =>
      have hentity := hdomain entity rfl
      simp only [h.isTypeBelow_counterpart helement hentity]
      split
      · exact helement
      · exact .other hentity

/-- **Names that are known in the same way mean the same.** Let neither of two such names occur in the arguments of a
    type, in the entity type of the repository and in the element type that is known beforehand. Then a type with the one
    name and the type with the other are both refused as wrappers without an argument, or both have a meaning: of the same
    shape, and with the same types in it, up to the name of the types themselves. -/
theorem resolve_withName (h : v.Mirrors a b) (hname : declared.simpleName = a)
    (hargs : ∀ arg ∈ declared.args, arg.Avoids a b) (hdomain : ∀ entity ∈ domain, entity.Avoids a b)
    (hoverride : ∀ element ∈ override, element.Avoids a b) :
    ExceptRel (fun e e' => e = .missingTypeArgument declared ∧ e' = .missingTypeArgument (declared.withName b))
      (Renamed a b) (v.resolve declared domain override) (v.resolve (declared.withName b) domain override) := by
  by_cases hraw : v.RawWrapper declared
  · have hraw' : v.RawWrapper (declared.withName b) := ⟨(h.registered_withName hname).2 hraw.1, hraw.2⟩
    rw [resolve_of_raw hraw, resolve_of_raw hraw']
    exact .error ⟨rfl, rfl⟩
  obtain ⟨unwrapped, hinside⟩ := exists_inside hraw
  rcases hinside with ⟨hreg, hfirst⟩ | ⟨hbare, rfl⟩
  · -- both are wrappers of one type, which has nothing to do with the names
    have hunwrapped : unwrapped.Avoids a b := hargs unwrapped (List.mem_of_head? hfirst)
    have helement : Counterpart a b (override.getD (v.elementType unwrapped))
        (override.getD (v.elementType unwrapped)) := by
      cases override with
      | some element => exact .other (hoverride element rfl)
      | none => exact .other (hunwrapped.elementType v)
    have hentity := h.effectiveDomain hdomain helement
    rw [resolve_of_inside (.inl ⟨hreg, hfirst⟩),
      resolve_of_inside (.inl ⟨(h.registered_withName hname).2 hreg, hfirst⟩)]
    refine .ok ⟨(Counterpart.head hname).renamed, (Counterpart.other hunwrapped).renamed, helement.renamed,
      hentity.renamed, ?_⟩
    exact classify_congr_declared (h.multiValued_withName hname)
  · -- both are no wrappers, so the types themselves are classified
    have helement : Counterpart a b (override.getD (v.elementType unwrapped))
        (override.getD (v.elementType (unwrapped.withName b))) := by
      cases override with
      | some element => exact .other (hoverride element rfl)
      | none => exact h.elementType_withName hname hargs
    have hentity := h.effectiveDomain hdomain helement
    rw [resolve_of_inside (.inr ⟨hbare, rfl⟩),
      resolve_of_inside (.inr ⟨mt (h.registered_withName hname).1 hbare, rfl⟩)]
    exact .ok ⟨(Counterpart.head hname).renamed, (Counterpart.head hname).renamed, helement.renamed, hentity.renamed,
      h.classify_withName hname hbare hentity⟩

/-- A vocabulary with two kinds of users, -/
def twoRanks : Vocabulary := ⟨.builtin, (Hierarchy.builtin.declare "Admin" "User").declare "Chief" "User"⟩

/-- and a type of the one kind, with an argument. -/
def adminByKey : DeclaredType := .mk ["staff", "Admin"] [.generic "Key" [.named "User"]]

/-- In a repository of users, it is its own element type and the entity type, and a single result, as it would be with
    the name of the other kind. -/
theorem resolve_withName_admin :
    (twoRanks.Mirrors "Admin" "Chief" ∧ adminByKey.simpleName = "Admin" ∧
      (∀ arg ∈ adminByKey.args, arg.Avoids "Admin" "Chief") ∧
      (∀ entity ∈ some (named "User"), entity.Avoids "Admin" "Chief") ∧
      ∀ element ∈ (none : Option DeclaredType), element.Avoids "Admin" "Chief") ∧
    ExceptRel
      (fun e e' => e = .missingTypeArgument adminByKey ∧ e' = .missingTypeArgument (adminByKey.withName "Chief"))
      (Renamed "Admin" "Chief") (twoRanks.resolve adminByKey (some (named "User")) none)
      (twoRanks.resolve (adminByKey.withName "Chief") (some (named "User")) none) := by
  have hmirrors : twoRanks.Mirrors "Admin" "Chief" := by
    refine .of_supertypes (by decide) (by decide) (by decide +kernel) fun sup => ?_
    have hsupertypes : twoRanks.hierarchy.supertypesOf "Admin" = twoRanks.hierarchy.supertypesOf "Chief" := by
      decide +kernel
    rw [hsupertypes]
  have hargs : ∀ arg ∈ adminByKey.args, arg.Avoids "Admin" "Chief" := by decide +kernel
  have hdomain : ∀ entity ∈ some (named "User"), entity.Avoids "Admin" "Chief" := by decide +kernel
  have hoverride : ∀ element ∈ (none : Option DeclaredType), element.Avoids "Admin" "Chief" := nofun
  exact ⟨⟨hmirrors, rfl, hargs, hdomain, hoverride⟩, resolve_withName hmirrors rfl hargs hdomain hoverride⟩

end Vocabulary

end QueryContract
