/-!
# `Proofs.FirstCase` — tables of cases, read from the top

The rules between roles and shapes and the kinds of results are all decided by the **first** of several conditions
that holds. A table lists the answers with their conditions in order of precedence, and `FirstCase table x` says
that `x` is the answer of the first case whose condition holds. Nothing is computed: the conditions are any
propositions.

* `firstCase_cons` — one case at the top of a table;
* `firstCase_ite`  — a choice between two answers reads a table that is one case longer;
* `firstCase_find?` — a search for the first element with a property reads the table of the elements;
* `firstCase_findSome?` — a search for the first broken rule reads the table of the rules.
-/

namespace QueryContract

variable {α : Type}

/-- The first case of the table whose condition holds has the answer `x`. -/
inductive FirstCase : List (α × Prop) → α → Prop
  | here {x : α} {p : Prop} {rest : List (α × Prop)} : p → FirstCase ((x, p) :: rest) x
  | later {x y : α} {p : Prop} {rest : List (α × Prop)} : ¬p → FirstCase rest x → FirstCase ((y, p) :: rest) x

theorem firstCase_cons {x y : α} {p : Prop} {rest : List (α × Prop)} :
    FirstCase ((y, p) :: rest) x ↔ (p ∧ y = x) ∨ (¬p ∧ FirstCase rest x) := by
  constructor
  · intro h
    cases h with
    | here hp => exact Or.inl ⟨hp, rfl⟩
    | later hp hrest => exact Or.inr ⟨hp, hrest⟩
  · rintro (⟨hp, rfl⟩ | ⟨hp, hrest⟩)
    · exact .here hp
    · exact .later hp hrest

/-- An answer stands in the table, with a condition that holds. -/
theorem FirstCase.exists_mem {x : α} {table : List (α × Prop)} (h : FirstCase table x) :
    ∃ p, (x, p) ∈ table ∧ p := by
  induction h with
  | here hp => exact ⟨_, List.mem_cons_self, hp⟩
  | later _ _ ih =>
      obtain ⟨p, hmem, hp⟩ := ih
      exact ⟨p, List.mem_cons_of_mem _ hmem, hp⟩

/-- The last case has nothing to be compared with. -/
theorem firstCase_otherwise {x y : α} : FirstCase [(y, True)] x ↔ y = x := by
  constructor
  · intro h
    cases h with
    | here _ => rfl
    | later hn _ => exact absurd trivial hn
  · rintro rfl
    exact .here trivial

/-- **A choice reads one more case.** If `other` is what the table answers, then choosing between `y` and `other` is
    what the table with the case `y` on top answers. -/
theorem firstCase_ite {y other : α} {p q : Prop} [Decidable q] {rest : List (α × Prop)} (hpq : p ↔ q)
    (h : ∀ x, FirstCase rest x ↔ other = x) (x : α) :
    FirstCase ((y, p) :: rest) x ↔ (if q then y else other) = x := by
  rw [firstCase_cons, hpq]
  by_cases hq : q
  · rw [if_pos hq]
    constructor
    · rintro (⟨-, hx⟩ | ⟨hn, -⟩)
      · exact hx
      · exact absurd hq hn
    · intro hx
      exact Or.inl ⟨hq, hx⟩
  · rw [if_neg hq, ← h x]
    constructor
    · rintro (⟨hp, -⟩ | ⟨-, hx⟩)
      · exact absurd hp hq
      · exact hx
    · intro hx
      exact Or.inr ⟨hq, hx⟩

/-- **A search reads the table of the elements.** -/
theorem firstCase_find? {p : α → Bool} {x : α} :
    ∀ {xs : List α}, FirstCase (xs.map fun y => (y, p y = true)) x ↔ xs.find? p = some x
  | [] => ⟨nofun, nofun⟩
  | y :: ys => by
      rw [List.map_cons, firstCase_cons, firstCase_find?, List.find?_cons]
      cases hp : p y <;> simp

/-- **A search for a broken rule reads the table of the rules.** If `other` is what the rest of the table answers, it
    is also the answer when no rule is broken. -/
theorem firstCase_findSome? {β : Type} {broken : β → Bool} {report : β → α} {other : Option α}
    {rest : List (Option α × Prop)} (h : ∀ x, FirstCase rest x ↔ other = x) :
    ∀ (rules : List β) (x : Option α),
      FirstCase (rules.map (fun r => (some (report r), broken r = true)) ++ rest) x ↔
        (rules.findSome? (fun r => if broken r then some (report r) else none) <|> other) = x
  | [], x => h x
  | r :: rules, x => by
      rw [List.map_cons, List.cons_append, firstCase_ite Iff.rfl (firstCase_findSome? h rules), List.findSome?_cons]
      cases broken r <;> rfl

end QueryContract
