import QueryContract.Proofs.Agreement
import QueryContract.Settings

/-!
# `Proofs.Construction` — one analyzer, built in different ways

An analyzer can be built from settings, or by adding wrappers and subtypes one at a time. For the wrappers the order
counts, because a later one of a name replaces an earlier one; for the subtypes it does not, nor how often a pair is
declared, because only the set of declared pairs decides what is below what.

* `Addition`, `Blueprint.extended`     — wrappers and subtypes added one at a time;
* `wrappers_extended`, `mem_extended`  — what the additions leave behind;
* `Hierarchy.isBelow_congr`            — hierarchies with the same pairs decide the same;
* `Settings.SpelledOut`                — additions that say what settings say;
* `describe_spelledOut`                — the main statement: look-ups, subtypes and descriptions are the same.
-/

namespace QueryContract

/-! ## Additions -/

/-- One more entry for an analyzer under construction. -/
inductive Addition where
  | wrapper (name : String) (w : Wrapper)
  | subtype (sub sup : String)
deriving DecidableEq

namespace Addition

/-- The name that an addition says something about. -/
def name : Addition → String
  | wrapper name _ => name
  | subtype sub _ => sub

/-- The wrapper with its name, if the addition is one. -/
def wrapper? : Addition → Option (String × Wrapper)
  | wrapper name w => some (name, w)
  | subtype _ _ => none

/-- The blueprint with the addition made. -/
def apply (b : Blueprint) : Addition → Blueprint
  | wrapper name w => b.withWrapper name w
  | subtype sub sup => b.withSubtype sub sup

end Addition

namespace Blueprint

/-- The blueprint with additions made, in order. -/
def extended (b : Blueprint) (additions : List Addition) : Blueprint := additions.foldl Addition.apply b

variable (b : Blueprint)

@[simp] theorem extended_nil : b.extended [] = b := rfl

@[simp] theorem extended_cons (x : Addition) (xs : List Addition) :
    b.extended (x :: xs) = (x.apply b).extended xs := rfl

/-- Additions leave the choice of the classifier open. -/
@[simp] theorem classifier_extended (xs : List Addition) : (b.extended xs).classifier = b.classifier := by
  induction xs generalizing b with
  | nil => rfl
  | cons x xs ih =>
      rw [extended_cons, ih]
      cases x <;> rfl

/-- Where the hierarchy is to decide the roles, it is the final one that will. -/
theorem extended_of_open (v : Vocabulary) (xs : List Addition) :
    (mk v none).extended xs = ⟨((mk v none).extended xs).vocabulary, none⟩ := by
  have hclassifier : ((mk v none).extended xs).classifier = none := classifier_extended _ xs
  calc (mk v none).extended xs
      = ⟨((mk v none).extended xs).vocabulary, ((mk v none).extended xs).classifier⟩ := rfl
    _ = ⟨((mk v none).extended xs).vocabulary, none⟩ := by rw [hclassifier]

/-- **The wrappers among the additions are registered in order,** whatever stands between them. -/
theorem wrappers_extended (xs : List Addition) : (b.extended xs).vocabulary.wrappers =
    (xs.filterMap Addition.wrapper?).foldl (fun t entry => t.register entry.1 entry.2) b.vocabulary.wrappers := by
  induction xs generalizing b with
  | nil => rfl
  | cons x xs ih =>
      rw [extended_cons, ih]
      cases x with
      | wrapper name w => rfl
      | subtype sub sup => rfl

/-- **The declared pairs are those there were and those that were added,** whatever their order and number. -/
theorem mem_extended (xs : List Addition) (p : String × String) : p ∈ (b.extended xs).vocabulary.hierarchy.pairs ↔
    p ∈ b.vocabulary.hierarchy.pairs ∨ .subtype p.1 p.2 ∈ xs := by
  induction xs generalizing b with
  | nil => simp
  | cons x xs ih =>
      rw [extended_cons, ih, List.mem_cons]
      cases x with
      | wrapper name w =>
          show p ∈ b.vocabulary.hierarchy.pairs ∨ _ ↔ _
          simp
      | subtype sub sup =>
          show p ∈ (b.vocabulary.hierarchy.declare sub sup).pairs ∨ _ ↔ _
          have hpair : p = (sub, sup) ↔ Addition.subtype p.1 p.2 = .subtype sub sup := by
            rw [Addition.subtype.injEq, Prod.ext_iff]
          rw [Hierarchy.mem_pairs_declare, hpair, or_assoc]

end Blueprint

/-! ## Hierarchies -/

namespace Hierarchy

variable {h h' : Hierarchy}

/-- **Hierarchies with the same pairs decide the same,** although the search meets the pairs in another order. -/
theorem isBelow_congr (same : ∀ p, p ∈ h.pairs ↔ p ∈ h'.pairs) (sub sup : String) :
    h.isBelow sub sup = h'.isBelow sub sup := by
  rw [Bool.eq_iff_iff, isBelow_iff, isBelow_iff]
  constructor
  · exact Path.mono fun p hp => (same p).1 hp
  · exact Path.mono fun p hp => (same p).2 hp

/-- Supertypes declared name by name. -/
theorem mem_declareEntries (entries : List (String × List String)) (p : String × String) :
    p ∈ (entries.foldl (fun h entry => h.declareAll entry.1 entry.2) h).pairs ↔
      p ∈ h.pairs ∨ ∃ sups, (p.1, sups) ∈ entries ∧ p.2 ∈ sups := by
  induction entries generalizing h with
  | nil => simp
  | cons entry entries ih =>
      obtain ⟨sub, sups⟩ := entry
      obtain ⟨x, y⟩ := p
      rw [List.foldl_cons, ih, mem_pairs_declareAll]
      simp only [List.mem_cons, Prod.mk.injEq]
      constructor
      · rintro ((hp | ⟨sup, hsup, rfl, rfl⟩) | ⟨sups', hmem, hy⟩)
        · exact .inl hp
        · exact .inr ⟨sups, .inl ⟨rfl, rfl⟩, hsup⟩
        · exact .inr ⟨sups', .inr hmem, hy⟩
      · rintro (hp | ⟨sups', ⟨rfl, rfl⟩ | hmem, hy⟩)
        · exact .inl (.inl hp)
        · exact .inl (.inr ⟨y, hy, rfl, rfl⟩)
        · exact .inr ⟨sups', hmem, hy⟩

end Hierarchy

/-! ## Settings -/

namespace Settings

variable (s : Settings)

/-- The blueprint that the settings start from: the built-in vocabulary, or none at all. -/
def start : Blueprint :=
  if s.includeDefaults then .builtin else (Blueprint.builtin.withWrappers .empty).withHierarchy .empty

/-- The additions say what the settings say: the same wrappers in the same order, and the same pairs of subtype and
    supertype, each at least once and in any order. -/
structure SpelledOut (additions : List Addition) : Prop where
  wrappers : additions.filterMap Addition.wrapper? = s.wrappers
  subtypes : ∀ sub sup, .subtype sub sup ∈ additions ↔ ∃ sups, (sub, sups) ∈ s.subtypes ∧ sup ∈ sups

variable {s}

theorem wrappers_start : s.start.vocabulary.wrappers = if s.includeDefaults then .builtin else .empty := by
  unfold start
  split <;> rfl

theorem hierarchy_start : s.start.vocabulary.hierarchy = if s.includeDefaults then .builtin else .empty := by
  unfold start
  split <;> rfl

/-- Settings leave the roles to the hierarchy. -/
theorem start_eq : s.start = ⟨s.start.vocabulary, none⟩ := by
  unfold start
  split <;> rfl

namespace SpelledOut

variable {additions : List Addition} (h : s.SpelledOut additions)

include h

/-- The tables of wrappers are the same, -/
theorem wrapperTable_eq : s.wrapperTable = (s.start.extended additions).vocabulary.wrappers := by
  rw [Blueprint.wrappers_extended, h.wrappers, wrappers_start]
  rfl

/-- and the hierarchies have the same pairs. -/
theorem mem_hierarchy (p : String × String) :
    p ∈ s.hierarchy.pairs ↔ p ∈ (s.start.extended additions).vocabulary.hierarchy.pairs := by
  rw [Blueprint.mem_extended, h.subtypes, hierarchy_start]
  exact Hierarchy.mem_declareEntries s.subtypes p

/-- So the vocabularies agree on all types. -/
theorem agreeOn : s.vocabulary.AgreeOn (s.start.extended additions).vocabulary fun _ => True where
  wrapper _ := by
    show s.wrapperTable.find? _ = _
    rw [h.wrapperTable_eq]
  below _ sup := Hierarchy.isBelow_congr h.mem_hierarchy _ sup
  inside _ _ := trivial

end SpelledOut

/-- **Settings and additions build one analyzer.** If the additions say what the settings say, the analyzer built from
    the settings and the one built by making the additions know the same wrappers under every name, decide the same
    about every two names, and describe every method in the same way; both let their final hierarchy decide the roles
    of parameters. -/
theorem describe_spelledOut {additions : List Addition} (h : s.SpelledOut additions) :
    (∀ name, (Blueprint.builtin.withSettings s).build.vocabulary.wrappers.find? name =
      (s.start.extended additions).build.vocabulary.wrappers.find? name) ∧
    (∀ sub sup, (Blueprint.builtin.withSettings s).build.vocabulary.hierarchy.isBelow sub sup =
      (s.start.extended additions).build.vocabulary.hierarchy.isBelow sub sup) ∧
    ∀ repository m, ExceptRel Eq Description.Agrees
      ((Blueprint.builtin.withSettings s).build.describe repository m)
      ((s.start.extended additions).build.describe repository m) := by
  have hextended : s.start.extended additions = ⟨(s.start.extended additions).vocabulary, none⟩ := by
    rw [start_eq]
    exact Blueprint.extended_of_open _ additions
  refine ⟨?_, ?_, ?_⟩
  · intro name
    exact congrArg (WrapperTable.find? · name) h.wrapperTable_eq
  · intro sub sup
    exact Hierarchy.isBelow_congr h.mem_hierarchy sub sup
  · intro repository m
    rw [hextended]
    exact h.agreeOn.describe (fun _ _ => trivial) trivial fun _ _ => trivial

/-- Settings with two wrappers, of which the second replaces the first, and a further kind of page, -/
def geoSettings : Settings :=
  { wrappers := [("Uni", ⟨.reactive, false⟩), ("Uni", ⟨.async, true⟩)],
    subtypes := [("GeoPage", ["Page"]), ("Tiles", ["GeoPage", "Stream"])] }

/-- and the same spelled out, the subtypes in another order and one of them twice. -/
def geoAdditions : List Addition :=
  [.subtype "Tiles" "Stream", .wrapper "Uni" ⟨.reactive, false⟩, .subtype "GeoPage" "Page", .subtype "Tiles" "Stream",
    .wrapper "Uni" ⟨.async, true⟩, .subtype "Tiles" "GeoPage"]

/-- A method that returns tiles later. -/
def findTiles : Method :=
  { name := "find_tiles", parameters := [⟨some "page", .named "Pageable"⟩],
    result := .generic "Uni" [.generic "Tiles" [.named "Tile"]] }

/-- The additions say what the settings say, so both analyzers describe the method in the same way. -/
theorem describe_spelledOut_geo :
    geoSettings.SpelledOut geoAdditions ∧
    (Blueprint.builtin.withSettings geoSettings).build.vocabulary.wrappers.find? "Uni" =
      (geoSettings.start.extended geoAdditions).build.vocabulary.wrappers.find? "Uni" ∧
    (Blueprint.builtin.withSettings geoSettings).build.vocabulary.hierarchy.isBelow "Tiles" "Slice" =
      (geoSettings.start.extended geoAdditions).build.vocabulary.hierarchy.isBelow "Tiles" "Slice" ∧
    ExceptRel Eq Description.Agrees
      ((Blueprint.builtin.withSettings geoSettings).build.describe (.ofBindings none none []) findTiles)
      ((geoSettings.start.extended geoAdditions).build.describe (.ofBindings none none []) findTiles) := by
  have hspelled : geoSettings.SpelledOut geoAdditions := by
    constructor
    · rfl
    · intro sub sup
      simp [geoAdditions, geoSettings]
      grind
  obtain ⟨hwrappers, hbelow, hdescribe⟩ := describe_spelledOut hspelled
  exact ⟨hspelled, hwrappers "Uni", hbelow "Tiles" "Slice", hdescribe _ findTiles⟩

end Settings

end QueryContract
