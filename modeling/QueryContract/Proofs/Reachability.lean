import Mathlib.Data.Finset.Card
import QueryContract.Proofs.Construction

/-!
# `Proofs.Reachability` — what declared subtypes decide

However a hierarchy came about, a name is below another exactly if a chain of declared pairs leads from the one to the
other. `Hierarchy.isBelow` searches for such a chain by dropping the pairs that it has used. The search by breadth
remembers the names that it has seen instead, and the two agree.

* `Hierarchy.search`           — the search by breadth; its queue and its memory (`search_iff`);
* `isBelow_eq_search`          — both searches come to the same;
* `Hierarchy.declareEntries`   — a hierarchy after declarations in any order and number;
* `Chain`, `Declared`          — chains of declared pairs (`path_iff_chain`);
* `declareEntries_reaches`     — the main statement, from any start and for any declarations.
-/

namespace QueryContract.Hierarchy

/-! ## Searching by breadth -/

/-- The names of a list that have not been seen, each of them once. -/
def unseen (seen : List String) : List String → List String
  | [] => []
  | x :: xs => if x ∈ seen then unseen seen xs else x :: unseen (x :: seen) xs

theorem mem_unseen {seen names : List String} {x : String} : x ∈ unseen seen names ↔ x ∈ names ∧ x ∉ seen := by
  fun_induction unseen seen names with
  | case1 => simp
  | case2 seen y ys hy ih =>
      rw [ih, List.mem_cons]
      constructor
      · rintro ⟨hx, hnew⟩
        exact ⟨.inr hx, hnew⟩
      · rintro ⟨rfl | hx, hnew⟩
        · exact absurd hy hnew
        · exact ⟨hx, hnew⟩
  | case3 seen y ys hy ih =>
      rw [List.mem_cons, List.mem_cons, ih, List.mem_cons, not_or]
      by_cases hxy : x = y
      · simp [hxy, hy]
      · simp [hxy]

theorem nodup_unseen (seen names : List String) : (unseen seen names).Nodup := by
  fun_induction unseen seen names with
  | case1 => exact .nil
  | case2 seen y ys hy ih => exact ih
  | case3 seen y ys hy ih =>
      refine List.nodup_cons.2 ⟨fun hmem => ?_, ih⟩
      exact (mem_unseen.1 hmem).2 List.mem_cons_self

theorem mem_above {pairs : List (String × String)} {x y : String} : y ∈ above pairs x ↔ (x, y) ∈ pairs := by
  simp [above]

/-- The supertypes that have not been seen. -/
def unseenSupertypes (pairs : List (String × String)) (seen : List String) : Finset String :=
  (pairs.map (·.2)).toFinset \ seen.toFinset

/-- Every name put into the queue is a supertype less to be seen. -/
theorem card_unseenSupertypes_add (pairs : List (String × String)) (seen : List String) (x : String) :
    (unseenSupertypes pairs (unseen seen (above pairs x) ++ seen)).card + (unseen seen (above pairs x)).length =
      (unseenSupertypes pairs seen).card := by
  have hrest : unseenSupertypes pairs (unseen seen (above pairs x) ++ seen) =
      unseenSupertypes pairs seen \ (unseen seen (above pairs x)).toFinset := by
    unfold unseenSupertypes
    rw [List.toFinset_append, Finset.union_comm, sdiff_sdiff_left, Finset.sup_eq_union]
  have hsub : (unseen seen (above pairs x)).toFinset ⊆ unseenSupertypes pairs seen := by
    intro y hy
    obtain ⟨habove, hnew⟩ := mem_unseen.1 (List.mem_toFinset.1 hy)
    have hmem : y ∈ pairs.map (·.2) := by
      obtain ⟨p, hp, rfl⟩ := List.mem_map.1 habove
      exact List.mem_map_of_mem (List.mem_filter.1 hp).1
    exact Finset.mem_sdiff.2 ⟨List.mem_toFinset.2 hmem, fun h => hnew (List.mem_toFinset.1 h)⟩
  rw [hrest, ← List.toFinset_card_of_nodup (nodup_unseen seen (above pairs x))]
  exact Finset.card_sdiff_add_card_eq_card hsub

/-- Whether `target` is a supertype of a name in the queue, or of one that gets there. The supertypes of the first name
    are put at the end of the queue, except those seen before; whether one of them is the target is asked first. The name
    that the search starts from is not among the names seen. -/
def search (target : String) (pairs : List (String × String)) (seen : List String) : List String → Bool
  | [] => false
  | x :: queue =>
    (above pairs x).contains target ||
      search target pairs (unseen seen (above pairs x) ++ seen) (queue ++ unseen seen (above pairs x))
termination_by queue => (unseenSupertypes pairs seen).card + queue.length
decreasing_by
  have := card_unseenSupertypes_add pairs seen x
  simp only [List.length_append, List.length_cons]
  omega

/-- Declared steps lead from a name to the target, and none of the names between the two has been seen. -/
inductive Around (pairs : List (String × String)) (target : String) (seen : List String) : String → Prop
  | last {a : String} : (a, target) ∈ pairs → Around pairs target seen a
  | step {a b : String} : (a, b) ∈ pairs → b ∉ seen → Around pairs target seen b → Around pairs target seen a

section

variable {pairs : List (String × String)} {target a x : String} {seen news queue : List String}

theorem Around.forget (h : Around pairs target (news ++ seen) a) : Around pairs target seen a := by
  induction h with
  | last hm => exact .last hm
  | step hm hnew _ ih => exact .step hm (fun h => hnew (List.mem_append_right news h)) ih

/-- Steps around the names seen so far avoid further names too, or go on from one of these. -/
theorem Around.split (news : List String) (h : Around pairs target seen a) :
    Around pairs target (news ++ seen) a ∨ ∃ y ∈ news, Around pairs target (news ++ seen) y := by
  induction h with
  | last hm => exact .inl (.last hm)
  | @step a b hm hnew _ ih =>
      rcases ih with hb | hy
      · by_cases hmem : b ∈ news
        · exact .inr ⟨b, hmem, hb⟩
        · exact .inl (.step hm (fun h => (List.mem_append.1 h).elim hmem hnew) hb)
      · exact .inr hy

/-- From a name that is looked at, the steps go on in its supertypes, unless the target is one of these. -/
theorem Around.advance (h : Around pairs target seen x) (hlast : (x, target) ∉ pairs) :
    ∃ y ∈ unseen seen (above pairs x), Around pairs target (unseen seen (above pairs x) ++ seen) y := by
  rcases h.split (unseen seen (above pairs x)) with hx | hy
  · cases hx with
    | last hm => exact absurd hm hlast
    | @step _ b hm hnew _ =>
        obtain ⟨hnews, hseen⟩ := not_or.1 (mt List.mem_append.2 hnew)
        exact absurd (mem_unseen.2 ⟨mem_above.2 hm, hseen⟩) hnews
  · exact hy

/-- **The search by breadth finds a target exactly if declared steps lead to it around the names seen.** Nothing is
    assumed of the queue and the names seen. -/
theorem search_iff : search target pairs seen queue = true ↔ ∃ x ∈ queue, Around pairs target seen x := by
  fun_induction search target pairs seen queue with
  | case1 => simp
  | case2 seen x queue ih =>
      rw [Bool.or_eq_true, List.contains_iff_mem, mem_above, ih]
      constructor
      · rintro (hm | ⟨y, hy, hsteps⟩)
        · exact ⟨x, List.mem_cons_self, .last hm⟩
        · rcases List.mem_append.1 hy with hqueue | hnews
          · exact ⟨y, List.mem_cons_of_mem x hqueue, hsteps.forget⟩
          · obtain ⟨habove, hseen⟩ := mem_unseen.1 hnews
            exact ⟨x, List.mem_cons_self, .step (mem_above.1 habove) hseen hsteps.forget⟩
      · rintro ⟨y, hy, hsteps⟩
        by_cases hlast : (x, target) ∈ pairs
        · exact .inl hlast
        · refine .inr ?_
          rcases List.mem_cons.1 hy with rfl | hqueue
          · obtain ⟨z, hz, hz'⟩ := hsteps.advance hlast
            exact ⟨z, List.mem_append_right queue hz, hz'⟩
          · rcases hsteps.split (unseen seen (above pairs x)) with h | ⟨z, hz, hz'⟩
            · exact ⟨y, List.mem_append_left _ hqueue, h⟩
            · exact ⟨z, List.mem_append_right queue hz, hz'⟩

/-- Where nothing has been seen, there is nothing to go around. -/
theorem path_iff_around : Path pairs a target ↔ a = target ∨ Around pairs target [] a := by
  constructor
  · intro h
    induction h with
    | refl => exact .inl rfl
    | step hm _ ih =>
        rcases ih with rfl | ih
        · exact .inr (.last hm)
        · exact .inr (.step hm List.not_mem_nil ih)
  · rintro (rfl | h)
    · exact .refl a
    · induction h with
      | last hm => exact .step hm (.refl target)
      | step hm _ _ ih => exact .step hm ih

/-- **Both searches come to the same.** -/
theorem isBelow_eq_search (h : Hierarchy) (sub sup : String) :
    h.isBelow sub sup = (sub == sup || search sup h.pairs [] [sub]) := by
  have hsearch : search sup h.pairs [] [sub] = true ↔ Around h.pairs sup [] sub := by
    rw [search_iff]
    simp
  rw [Bool.eq_iff_iff, isBelow_iff, Bool.or_eq_true, beq_iff_eq, hsearch]
  exact path_iff_around

end

/-! ## Chains of declared pairs -/

/-- Names `x 0, …, x n` lead from `a` to `b` in `n` steps, perhaps none. -/
def Chain (step : String → String → Prop) (a b : String) : Prop :=
  ∃ (n : Nat) (x : Nat → String), x 0 = a ∧ x n = b ∧ ∀ i < n, step (x i) (x (i + 1))

theorem chain_congr {step step' : String → String → Prop} (same : ∀ a b, step a b ↔ step' a b) {a b : String} :
    Chain step a b ↔ Chain step' a b := by
  unfold Chain
  simp only [same]

/-- A path is a chain. -/
theorem path_iff_chain {pairs : List (String × String)} {a b : String} :
    Path pairs a b ↔ Chain (fun x y => (x, y) ∈ pairs) a b := by
  constructor
  · intro h
    induction h with
    | refl a => exact ⟨0, fun _ => a, rfl, rfl, fun i hi => absurd hi (Nat.not_lt_zero i)⟩
    | @step a b c hm _ ih =>
        obtain ⟨n, x, hfirst, hlast, hsteps⟩ := ih
        refine ⟨n + 1, fun i => i.casesOn a x, rfl, hlast, fun i hi => ?_⟩
        cases i with
        | zero =>
            show (a, x 0) ∈ pairs
            rw [hfirst]
            exact hm
        | succ i => exact hsteps i (Nat.lt_of_succ_lt_succ hi)
  · rintro ⟨n, x, hfirst, hlast, hsteps⟩
    induction n generalizing a x with
    | zero =>
        rw [← hfirst, ← hlast]
        exact .refl _
    | succ n ih =>
        have hfirst' := hsteps 0 (Nat.succ_pos n)
        rw [hfirst] at hfirst'
        exact .step hfirst' (ih (fun i => x (i + 1)) rfl hlast fun i hi => hsteps (i + 1) (Nat.succ_lt_succ hi))

/-! ## Declarations in any order -/

/-- The hierarchy after supertypes have been declared name by name. -/
def declareEntries (start : Hierarchy) (entries : List (String × List String)) : Hierarchy :=
  entries.foldl (fun h entry => h.declareAll entry.1 entry.2) start

/-- The pair was there from the start, or one of the declarations brought it. -/
def Declared (start : Hierarchy) (entries : List (String × List String)) (sub sup : String) : Prop :=
  (sub, sup) ∈ start.pairs ∨ ∃ sups, (sub, sups) ∈ entries ∧ sup ∈ sups

variable {start : Hierarchy} {entries : List (String × List String)} {a b : String}

theorem mem_pairs_declareEntries : (a, b) ∈ (start.declareEntries entries).pairs ↔ Declared start entries a b :=
  mem_declareEntries entries (a, b)

theorem Declared.append (more : List (String × List String)) (h : Declared start entries a b) :
    Declared start (entries ++ more) a b := by
  rcases h with h | ⟨sups, hmem, hb⟩
  · exact .inl h
  · exact .inr ⟨sups, List.mem_append_left more hmem, hb⟩

theorem isBelow_iff_chain :
    (start.declareEntries entries).isBelow a b = true ↔ Chain (Declared start entries) a b := by
  rw [isBelow_iff, Below, path_iff_chain]
  exact chain_congr fun _ _ => mem_pairs_declareEntries

/-- **What a hierarchy decides** after declarations. -/
structure DecidesChains (start : Hierarchy) (entries : List (String × List String)) : Prop where
  /-- A name is below another exactly if a chain of declared pairs leads from the one to the other, -/
  chain : ∀ sub sup, (start.declareEntries entries).isBelow sub sup = true ↔ Chain (Declared start entries) sub sup
  /-- and that is what the search by breadth finds out. -/
  breadth : ∀ sub sup, (start.declareEntries entries).isBelow sub sup =
    (sub == sup || search sup (start.declareEntries entries).pairs [] [sub])
  /-- Every name is below itself, -/
  reflexive : ∀ a, (start.declareEntries entries).isBelow a a = true
  /-- and what is below a name is below all that this one is below. -/
  transitive : ∀ a b c, (start.declareEntries entries).isBelow a b = true →
    (start.declareEntries entries).isBelow b c = true → (start.declareEntries entries).isBelow a c = true
  /-- Further declarations take nothing back. -/
  monotone : ∀ more sub sup, (start.declareEntries entries).isBelow sub sup = true →
    (start.declareEntries (entries ++ more)).isBelow sub sup = true
  /-- Neither the order nor the number of the declarations counts, only the set of the declared pairs. -/
  setOfPairs : ∀ start' entries', (∀ a b, Declared start entries a b ↔ Declared start' entries' a b) →
    ∀ sub sup, (start.declareEntries entries).isBelow sub sup = (start'.declareEntries entries').isBelow sub sup

/-- **Declared subtypes decide by chains of declared pairs.** This holds from any start, the empty and the built-in
    hierarchy among them, and for any declarations: in any order, repeated, without supertypes, of a name below itself
    and in cycles. -/
theorem declareEntries_reaches (start : Hierarchy) (entries : List (String × List String)) :
    DecidesChains start entries where
  chain _ _ := isBelow_iff_chain
  breadth := isBelow_eq_search _
  reflexive a := isBelow_iff.2 (below_refl _ a)
  transitive _ _ _ hab hbc := isBelow_iff.2 ((isBelow_iff.1 hab).trans (isBelow_iff.1 hbc))
  monotone more _ _ h := by
    refine isBelow_iff.2 (Path.mono (fun p hp => ?_) (isBelow_iff.1 h))
    exact mem_pairs_declareEntries.2 (Declared.append more (mem_pairs_declareEntries.1 hp))
  setOfPairs _ _ same := by
    refine isBelow_congr fun p => ?_
    exact mem_pairs_declareEntries.trans ((same p.1 p.2).trans mem_pairs_declareEntries.symm)

end QueryContract.Hierarchy
