import Mathlib.Data.List.Induction
import QueryContract.Parameters
import QueryContract.Proofs.FirstCase
import QueryContract.Proofs.Lists

/-!
# `Proofs.Classification` — what classifying parameters comes to

`Parameters.classify` annotates a list and then looks for a role that is played twice. Here both are tied to the
declared list itself, without annotations:

* `players`   — the positions at which a classifier gives a role;
* `headcount` — how many parameters are given a role (`length_players`);
* `classify_eq_error_iff`, `classify_eq_ok_iff` — when a list is refused and why, and what is made of it otherwise.

Lists are taken apart at their end: a position never depends on what follows it.
-/

namespace QueryContract.Parameters

/-- The positions at which the classifier gives `role`, in ascending order. -/
def players (classifier : Classifier) (declared : List DeclaredParameter) (role : Role) : List Nat :=
  (List.range declared.length).filter fun i => declared[i]?.bind classifier = some role

/-- How many parameters the classifier gives `role`. -/
def headcount (classifier : Classifier) (declared : List DeclaredParameter) (role : Role) : Nat :=
  declared.countP fun p => classifier p = some role

/-- The parameters with their positions and roles. -/
def annotated (classifier : Classifier) (declared : List DeclaredParameter) : List Parameter :=
  declared.mapIdx fun i p => ⟨i, p.name, p.type, classifier p⟩

/-- Roles in the order in which they are looked at, each with the condition that it is played more than once. -/
def repeated (classifier : Classifier) (declared : List DeclaredParameter) : List (Role × Prop) :=
  [.pagination, .sort, .limit, .scrollCursor].map fun role => (role, 2 ≤ headcount classifier declared role)

variable {classifier : Classifier}

/-! ## Positions -/

theorem annotate_append (start : Nat) (ps qs : List DeclaredParameter) :
    annotate classifier start (ps ++ qs) =
      annotate classifier start ps ++ annotate classifier (start + ps.length) qs := by
  induction ps generalizing start with
  | nil => rfl
  | cons p ps ih =>
      rw [List.cons_append, annotate, annotate, ih (start + 1), List.length_cons, Nat.add_assoc start 1,
        Nat.add_comm 1, List.cons_append]

/-- Annotating a list numbers it from zero. -/
theorem annotate_eq_annotated (ps : List DeclaredParameter) :
    annotate classifier 0 ps = annotated classifier ps := by
  apply List.ext_getElem?
  intro i
  rw [getElem?_annotate, annotated, List.getElem?_mapIdx, Nat.zero_add]

/-- One more parameter adds its position to the players of its role. -/
theorem players_snoc (ps : List DeclaredParameter) (p : DeclaredParameter) (role : Role) :
    players classifier (ps ++ [p]) role =
      players classifier ps role ++ if classifier p = some role then [ps.length] else [] := by
  have hnew : (ps ++ [p])[ps.length]?.bind classifier = classifier p := by
    rw [List.getElem?_concat_length, Option.bind_some]
  unfold players
  rw [List.length_append, List.length_singleton, filter_range_succ (q := fun i => ps[i]?.bind classifier = some role)]
  · simp only [hnew, decide_eq_true_eq]
  · -- a position in the old list is judged by its own parameter
    intro i hi
    rw [List.getElem?_append_left hi]

/-- **The positions found among annotated parameters are the players.** -/
theorem positionsOf_annotate (ps : List DeclaredParameter) (role : Role) :
    positionsOf (annotate classifier 0 ps) role = players classifier ps role := by
  induction ps using List.reverseRecOn with
  | nil => rfl
  | append_singleton ps p ih =>
      rw [players_snoc, annotate_append, ← ih, Nat.zero_add]
      unfold positionsOf
      rw [List.filter_append, List.map_append]
      by_cases h : classifier p = some role
      · simp [annotate, h]
      · simp [annotate, h]

theorem length_players (ps : List DeclaredParameter) (role : Role) :
    (players classifier ps role).length = headcount classifier ps role := by
  induction ps using List.reverseRecOn with
  | nil => rfl
  | append_singleton ps p ih =>
      rw [players_snoc, List.length_append, ih, headcount, headcount, List.countP_append, List.countP_singleton]
      by_cases h : classifier p = some role
      · simp [h]
      · simp [h]

/-! ## Repeated roles -/

/-- The first repeated role is the one that the table of roles answers with. -/
theorem duplicate?_annotate {ps : List DeclaredParameter} {role : Role} :
    duplicate? (annotate classifier 0 ps) = some role ↔ FirstCase (repeated classifier ps) role := by
  have htable : repeated classifier ps = Role.all.map fun role =>
      (role, decide (1 < (positionsOf (annotate classifier 0 ps) role).length) = true) := by
    apply List.map_congr_left
    intro r _
    rw [positionsOf_annotate, length_players, decide_eq_true_eq, Nat.lt_iff_add_one_le]
  rw [htable, firstCase_find?]
  rfl

/-- No role is repeated exactly if each is played at most once. -/
theorem duplicate?_annotate_eq_none {ps : List DeclaredParameter} :
    duplicate? (annotate classifier 0 ps) = none ↔ ∀ role, headcount classifier ps role ≤ 1 := by
  unfold duplicate?
  rw [List.find?_eq_none]
  constructor
  · intro h role
    have hrole := h role (Role.mem_all role)
    rw [positionsOf_annotate, length_players, decide_eq_true_eq] at hrole
    exact Nat.le_of_not_lt hrole
  · intro h role _
    rw [positionsOf_annotate, length_players, decide_eq_true_eq]
    exact Nat.not_lt_of_le (h role)

/-! ## The contract of classification -/

theorem classify_of_repeated {ps : List DeclaredParameter} {role : Role}
    (h : FirstCase (repeated classifier ps) role) :
    classify classifier ps = .error (.duplicateRole role (players classifier ps role)) := by
  unfold classify
  simp only [duplicate?_annotate.2 h, positionsOf_annotate]

theorem classify_of_once {ps : List DeclaredParameter} (h : ∀ role, headcount classifier ps role ≤ 1) :
    classify classifier ps = .ok ⟨annotated classifier ps⟩ := by
  unfold classify
  simp only [duplicate?_annotate_eq_none.2 h]
  rw [annotate_eq_annotated]

/-- Either a first role is repeated, or none is. -/
theorem repeated_or_once (classifier : Classifier) (ps : List DeclaredParameter) :
    (∃ role, FirstCase (repeated classifier ps) role) ∨ ∀ role, headcount classifier ps role ≤ 1 := by
  cases hdup : duplicate? (annotate classifier 0 ps) with
  | some role => exact Or.inl ⟨role, duplicate?_annotate.1 hdup⟩
  | none => exact Or.inr (duplicate?_annotate_eq_none.1 hdup)

/-- **A list is refused exactly for its first repeated role,** with the positions of all its players. -/
theorem classify_eq_error_iff {ps : List DeclaredParameter} {reason : Malformed} :
    classify classifier ps = .error reason ↔
      ∃ role, FirstCase (repeated classifier ps) role ∧
        reason = .duplicateRole role (players classifier ps role) := by
  constructor
  · intro h
    rcases repeated_or_once classifier ps with ⟨role, hfirst⟩ | honce
    · rw [classify_of_repeated hfirst] at h
      injection h with h
      exact ⟨role, hfirst, h.symm⟩
    · rw [classify_of_once honce] at h
      cases h
  · rintro ⟨role, hfirst, rfl⟩
    exact classify_of_repeated hfirst

/-- **A list is classified exactly if no role is repeated,** and then annotated. -/
theorem classify_eq_ok_iff {ps : List DeclaredParameter} {parameters : Parameters} :
    classify classifier ps = .ok parameters ↔
      (∀ role, headcount classifier ps role ≤ 1) ∧ parameters = ⟨annotated classifier ps⟩ := by
  constructor
  · intro h
    rcases repeated_or_once classifier ps with ⟨role, hfirst⟩ | honce
    · rw [classify_of_repeated hfirst] at h
      cases h
    · rw [classify_of_once honce] at h
      injection h with h
      exact ⟨honce, h.symm⟩
  · rintro ⟨honce, rfl⟩
    exact classify_of_once honce

/-- A role is played in the annotated list if some parameter is given it. -/
theorem has_annotated (ps : List DeclaredParameter) (role : Role) :
    (Parameters.mk (annotated classifier ps)).has role = true ↔ 0 < headcount classifier ps role := by
  rw [← annotate_eq_annotated, headcount, List.countP_pos_iff]
  unfold has
  rw [List.any_eq_true]
  constructor
  · rintro ⟨p, hp, hrole⟩
    obtain ⟨i, hi⟩ := List.mem_iff_getElem?.1 hp
    rw [getElem?_annotate, Option.map_eq_some_iff] at hi
    obtain ⟨q, hq, rfl⟩ := hi
    exact ⟨q, List.mem_of_getElem? hq, hrole⟩
  · rintro ⟨q, hq, hrole⟩
    obtain ⟨i, hi⟩ := List.mem_iff_getElem?.1 hq
    have hget := getElem?_annotate classifier 0 i ps
    rw [hi, Option.map_some] at hget
    exact ⟨_, List.mem_of_getElem? hget, hrole⟩

end QueryContract.Parameters
