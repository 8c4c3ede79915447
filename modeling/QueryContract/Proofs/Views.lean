import Mathlib.Data.List.Nodup
import QueryContract.Proofs.Classification

/-!
# `Proofs.Views` — the views of classified parameters

The views of a classified list (`Parameters.positionOf`, `parameterOf`, `has`, `roles`, `bindable`) search it for the
roles its parameters play. They can also be read from a **table** with one entry for each role, filled while
classifying: each role is scanned for in turn, a second position refuses the list, and the first one is entered at
the index of the role. Whatever the classifier, the table and the roles noted at the parameters say the same.

* `Table`, `enter`, `tabulate` — the scans one after the other; `foldlM_enter` — what is in the table after a run;
* `classify_eq_tabulate` — classifying is tabulating;
* `Sole`, `positionOf_eq_some_iff` — the parameter at a position is the only one that plays a role;
* `Views`, `classify_views` — the contract of classification and of all views.
-/

namespace QueryContract

/-- The place of a role in the order of `Role.all`. -/
def Role.index : Role → Fin 4
  | pagination => 0
  | sort => 1
  | limit => 2
  | scrollCursor => 3

theorem Role.index_injective {r s : Role} (h : r.index = s.index) : r = s := by
  cases r <;> cases s <;> first | rfl | cases h

theorem Role.nodup_all : Role.all.Nodup := by decide

namespace Parameters

/-! ## The table of positions -/

/-- For each role, at its index, the position of the parameter that plays it. -/
abbrev Table := Vector (Option Nat) 4

/-- The table before the first scan. -/
def Table.empty : Table := Vector.replicate 4 none

/-- The entry of a role. -/
def Table.entry (table : Table) (role : Role) : Option Nat := table[role.index]

/-- One scan: the first position of `role` is entered, a second one refuses the list. -/
def enter (list : List Parameter) (table : Table) (role : Role) : Except Malformed Table :=
  if 1 < (positionsOf list role).length then .error (.duplicateRole role (positionsOf list role))
  else .ok (table.set role.index (positionsOf list role).head?)

/-- One scan for each role. -/
def tabulate (list : List Parameter) : Except Malformed Table := Role.all.foldlM (enter list) Table.empty

theorem Table.entry_set (table : Table) (role other : Role) (position : Option Nat) :
    Table.entry (table.set role.index position) other = if role = other then position else table.entry other := by
  unfold Table.entry
  by_cases h : role = other
  · subst h
    simp
  · have hindex : (role.index : Nat) ≠ other.index := fun heq => h (Role.index_injective (Fin.ext heq))
    rw [if_neg h]
    exact Vector.getElem_set_ne _ _ hindex

/-- **What a run of scans leaves behind:** the first role with two positions refuses the list. If there is none, the
    roles scanned for have their first positions, and the entries of the others are as they were. -/
theorem foldlM_enter (list : List Parameter) (roles : List Role) (table : Table) :
    match roles.find? fun role => 1 < (positionsOf list role).length with
    | some role => roles.foldlM (enter list) table = .error (.duplicateRole role (positionsOf list role))
    | none => ∃ filled, roles.foldlM (enter list) table = .ok filled ∧
        ∀ role, filled.entry role = if role ∈ roles then (positionsOf list role).head? else table.entry role := by
  induction roles generalizing table with
  | nil => exact ⟨table, rfl, fun role => by simp⟩
  | cons r roles ih =>
      rw [List.find?_cons, List.foldlM_cons]
      by_cases htwice : 1 < (positionsOf list r).length
      · simp only [enter, htwice, decide_true, if_true]
        rfl
      · have hstep : enter list table r = .ok (table.set r.index (positionsOf list r).head?) := if_neg htwice
        have hrun := ih (table.set r.index (positionsOf list r).head?)
        rw [hstep]
        simp only [htwice, decide_false]
        cases hfind : roles.find? fun role => 1 < (positionsOf list role).length with
        | some role =>
            rw [hfind] at hrun
            exact hrun
        | none =>
            rw [hfind] at hrun
            obtain ⟨filled, hfilled, hentries⟩ := hrun
            refine ⟨filled, hfilled, fun role => ?_⟩
            rw [hentries role, Table.entry_set]
            by_cases hr : r = role
            · subst hr
              simp
            · simp [hr, Ne.symm hr]

/-- **Classifying is tabulating:** the list is refused for the role at which the scans stop. -/
theorem classify_eq_tabulate (classifier : Classifier) (declared : List DeclaredParameter) :
    classify classifier declared =
      (tabulate (annotated classifier declared)).map fun _ => ⟨annotated classifier declared⟩ := by
  have hrun := foldlM_enter (annotated classifier declared) Role.all Table.empty
  unfold classify duplicate? tabulate
  rw [annotate_eq_annotated]
  dsimp only
  cases hfind : Role.all.find? fun role => 1 < (positionsOf (annotated classifier declared) role).length with
  | some role =>
      rw [hfind] at hrun
      rw [hrun]
      rfl
  | none =>
      rw [hfind] at hrun
      obtain ⟨filled, hfilled, -⟩ := hrun
      rw [hfilled]
      rfl

/-- A finished table has the position that the parameters themselves give for each role. -/
theorem entry_of_tabulate {list : List Parameter} {table : Table} (h : tabulate list = .ok table) (role : Role) :
    table.entry role = (Parameters.mk list).positionOf role := by
  have hrun := foldlM_enter list Role.all Table.empty
  unfold tabulate at h
  cases hfind : Role.all.find? fun role => 1 < (positionsOf list role).length with
  | some twice =>
      rw [hfind, h] at hrun
      cases hrun
  | none =>
      rw [hfind] at hrun
      obtain ⟨filled, hfilled, hentries⟩ := hrun
      rw [h] at hfilled
      injection hfilled with heq
      subst heq
      rw [hentries role, if_pos (Role.mem_all role)]
      unfold positionOf parameterOf positionsOf
      rw [List.head?_map, List.head?_filter]

/-! ## The parameter of a role -/

/-- The parameter at position `i` plays `role`, and no other one does. -/
def Sole (ps : Parameters) (role : Role) (i : Nat) : Prop :=
  ∀ j, (ps.get? j).bind Parameter.role = some role ↔ j = i

section

variable {classifier : Classifier} {declared : List DeclaredParameter}

theorem get?_annotated (i : Nat) :
    (Parameters.mk (annotated classifier declared)).get? i =
      declared[i]?.map fun p => ⟨i, p.name, p.type, classifier p⟩ := by
  unfold get? annotated
  rw [List.getElem?_mapIdx]

/-- The players of a role are the positions at which the annotated list notes it. -/
theorem mem_players {role : Role} {i : Nat} :
    i ∈ players classifier declared role ↔
      ((Parameters.mk (annotated classifier declared)).get? i).bind Parameter.role = some role := by
  rw [get?_annotated, players, List.mem_filter, decide_eq_true_eq, List.mem_range]
  cases hi : declared[i]? with
  | none => simp
  | some p =>
      have hlt : i < declared.length := (List.getElem?_eq_some_iff.1 hi).1
      simp [hlt]

/-- The position of a role is its first player. -/
theorem positionOf_annotated (role : Role) :
    (Parameters.mk (annotated classifier declared)).positionOf role = (players classifier declared role).head? := by
  rw [← positionsOf_annotate, annotate_eq_annotated]
  unfold positionOf parameterOf positionsOf
  rw [List.head?_map, List.head?_filter]

/-- **A role that is played at most once has the position of its only player.** -/
theorem positionOf_eq_some_iff {role : Role} (honce : headcount classifier declared role ≤ 1) {i : Nat} :
    (Parameters.mk (annotated classifier declared)).positionOf role = some i ↔
      Sole ⟨annotated classifier declared⟩ role i := by
  rw [positionOf_annotated]
  unfold Sole
  simp only [← mem_players]
  rw [← length_players] at honce
  match hplayers : players classifier declared role, honce with
  | [], _ =>
      constructor
      · nofun
      · intro h
        have hi := (h i).2 rfl
        cases hi
  | [k], _ =>
      simp only [List.head?_cons, Option.some.injEq, List.mem_singleton]
      constructor
      · rintro rfl j
        rfl
      · intro h
        exact ((h i).2 rfl).symm

/-- The parameter of a role is the one at its position, which is in range. -/
theorem parameterOf_annotated {role : Role} {p : Parameter}
    (h : (Parameters.mk (annotated classifier declared)).parameterOf role = some p) :
    (annotated classifier declared)[p.position]? = some p := by
  obtain ⟨i, hi⟩ := List.mem_iff_getElem?.1 (List.mem_of_find?_eq_some h)
  have hposition : p.position = i := by
    rw [annotated, List.getElem?_mapIdx, Option.map_eq_some_iff] at hi
    obtain ⟨q, -, rfl⟩ := hi
    rfl
  rw [hposition]
  exact hi

/-- The annotated list notes each role as often as it is given. -/
theorem countP_annotated (role : Role) :
    (annotated classifier declared).countP (·.role = some role) = headcount classifier declared role := by
  rw [← length_players, ← positionsOf_annotate, annotate_eq_annotated, List.countP_eq_length_filter]
  unfold positionsOf
  rw [List.length_map]

/-! ## Counting -/

/-- The roles noted at the parameters, in the order of the parameters. -/
def noted (list : List Parameter) : List Role := list.filterMap Parameter.role

/-- **The roles present are those noted at the parameters,** put in the order of `Role.all`. -/
theorem noted_perm_roles (honce : ∀ role, headcount classifier declared role ≤ 1) :
    (noted (annotated classifier declared)).Perm (Parameters.mk (annotated classifier declared)).roles := by
  have hnoted : (noted (annotated classifier declared)).Nodup := by
    rw [List.nodup_iff_count_le_one]
    intro role
    rw [noted, List.count_filterMap]
    simpa only [beq_eq_decide, countP_annotated] using honce role
  have hroles : (Parameters.mk (annotated classifier declared)).roles.Nodup := Role.nodup_all.filter _
  refine (List.perm_ext_iff_of_nodup hnoted hroles).2 fun role => ?_
  simp [noted, roles, has, Role.mem_all]

/-- A parameter binds a value or notes a role. -/
theorem length_eq_bindable_add_noted (ps : Parameters) :
    ps.length = ps.bindable.length + (noted ps.list).length := by
  have hbindable : ps.bindable.length = ps.list.countP fun p => p.role.isNone := by
    rw [bindable, ← List.countP_eq_length_filter]
    rfl
  have hnoted : (noted ps.list).length = ps.list.countP fun p => decide ¬p.role.isNone := by
    rw [noted, List.length_filterMap_eq_countP]
    refine List.countP_congr fun p _ => ?_
    cases p.role <;> simp
  rw [hbindable, hnoted, length]
  exact List.length_eq_countP_add_countP fun p : Parameter => p.role.isNone

end

/-! ## The contract -/

/-- What a classified list and its views say about the declared parameters. -/
structure Views (classifier : Classifier) (declared : List DeclaredParameter) (ps : Parameters) : Prop where
  /-- No parameter is lost. -/
  length : ps.length = declared.length
  /-- Each parameter keeps its place, its name and its type. -/
  parameter : ∀ i, ps.get? i = declared[i]?.map fun p => ⟨i, p.name, p.type, classifier p⟩
  /-- The table of positions is complete and agrees with the roles of the parameters. -/
  table : ∃ table, tabulate ps.list = .ok table ∧ ∀ role, table.entry role = ps.positionOf role
  /-- A role has the position of the only parameter that plays it. -/
  position : ∀ role i, ps.positionOf role = some i ↔ ps.Sole role i
  /-- The position of a role is in range, and its parameter is the one at that position. -/
  inRange : ∀ role i, ps.positionOf role = some i → ∃ h : i < ps.list.length, ps.parameterOf role = some ps.list[i]
  /-- A role has a parameter exactly if it has a position. -/
  absent : ∀ role, ps.parameterOf role = none ↔ ps.positionOf role = none
  /-- A role is present exactly if some parameter plays it. -/
  present : ∀ role, ps.has role = true ↔ ∃ p ∈ ps.list, p.role = some role
  /-- The roles present are listed once each, in the order of all roles. -/
  roles : ps.roles.Nodup ∧ ps.roles.Sublist Role.all ∧ ∀ role, role ∈ ps.roles ↔ ps.has role = true
  /-- The parameters without a role are listed in order. -/
  bindable : ps.bindable.Sublist ps.list ∧ ∀ p, p ∈ ps.bindable ↔ p ∈ ps.list ∧ p.role = none
  /-- Each parameter binds a value or plays a role of its own. -/
  count : ps.length = ps.bindable.length + ps.roles.length

/-- The views of annotated parameters among which no role is repeated. -/
theorem views_annotated {classifier : Classifier} {declared : List DeclaredParameter}
    (honce : ∀ role, headcount classifier declared role ≤ 1) :
    Views classifier declared ⟨annotated classifier declared⟩ := by
  have hclassify : classify classifier declared = .ok ⟨annotated classifier declared⟩ := classify_of_once honce
  constructor
  case length => exact List.length_mapIdx
  case parameter => exact get?_annotated
  case table =>
      rw [classify_eq_tabulate] at hclassify
      cases htable : tabulate (annotated classifier declared) with
      | error reason =>
          rw [htable] at hclassify
          cases hclassify
      | ok table => exact ⟨table, rfl, entry_of_tabulate htable⟩
  case position => exact fun role i => positionOf_eq_some_iff (honce role)
  case inRange =>
      intro role i hi
      obtain ⟨p, hp, rfl⟩ := Option.map_eq_some_iff.1 hi
      obtain ⟨hlt, hget⟩ := List.getElem?_eq_some_iff.1 (parameterOf_annotated hp)
      exact ⟨hlt, by rw [hp, hget]⟩
  case absent => exact fun role => Option.map_eq_none_iff.symm
  case present => exact fun role => by simp [has]
  case roles =>
      refine ⟨Role.nodup_all.filter _, List.filter_sublist, fun role => ?_⟩
      simp [Parameters.roles, Role.mem_all]
  case bindable =>
      refine ⟨List.filter_sublist, fun p => ?_⟩
      simp [Parameters.bindable, Parameter.isBindable]
  case count => rw [length_eq_bindable_add_noted, (noted_perm_roles honce).length_eq]

/-- **The contract of classification.** Whatever the classifier and the declared parameters: the list is refused
    exactly if some role is given twice, and then for the first such role in the order of all roles, with the
    positions of all its players in ascending order. Otherwise every view describes the declared parameters. -/
theorem classify_views (classifier : Classifier) (declared : List DeclaredParameter) :
    (∀ reason, classify classifier declared = .error reason ↔
      ∃ role, FirstCase (repeated classifier declared) role ∧
        reason = .duplicateRole role (players classifier declared role)) ∧
    ((∃ role, 2 ≤ headcount classifier declared role) ∧ (∃ reason, classify classifier declared = .error reason) ∨
      (∀ role, headcount classifier declared role ≤ 1) ∧
        ∃ ps, classify classifier declared = .ok ps ∧ Views classifier declared ps) ∧
    ∀ role, (players classifier declared role).Pairwise (· < ·) := by
  refine ⟨fun reason => classify_eq_error_iff, ?_, fun role => List.pairwise_lt_range.filter _⟩
  rcases repeated_or_once classifier declared with ⟨role, hfirst⟩ | honce
  · refine Or.inl ⟨?_, _, classify_of_repeated hfirst⟩
    obtain ⟨p, hmem, hp⟩ := hfirst.exists_mem
    obtain ⟨r, -, heq⟩ := List.mem_map.1 hmem
    obtain ⟨-, rfl⟩ := Prod.mk.inj heq
    exact ⟨r, hp⟩
  · exact Or.inr ⟨honce, _, classify_of_once honce, views_annotated honce⟩

end Parameters

end QueryContract
