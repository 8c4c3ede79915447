/-!
# `Proofs.Lists` — lists taken apart

The ways in which the main results look at a list of parameters, of methods or of texts:

* `exists_first`               — split before the first element with a property;
* `filter_range_succ`          — by the positions with a property, one of them at the end;
* `append_inj_of_stop`         — where elements with a property stop;
* `filterMap_cons_toList`      — elements that are mapped and those that are not kept;
* `mapM_of_ok`, `mapM_of_error` — all results of a computation that may fail, or its first failure.
-/

namespace QueryContract

variable {α : Type}

/-- Among the elements with a property one is the first. -/
theorem exists_first {p : α → Prop} [DecidablePred p] {xs : List α} (h : ∃ x ∈ xs, p x) :
    ∃ before x later, xs = before ++ x :: later ∧ p x ∧ ∀ y ∈ before, ¬p y := by
  have hsome : (xs.find? fun x => decide (p x)).isSome = true := by
    rw [List.find?_isSome]
    simpa only [decide_eq_true_eq] using h
  obtain ⟨x, hx⟩ := Option.isSome_iff_exists.1 hsome
  obtain ⟨hpx, before, later, hxs, hbefore⟩ := List.find?_eq_some_iff_append.1 hx
  refine ⟨before, x, later, hxs, of_decide_eq_true hpx, ?_⟩
  intro y hy
  simpa using hbefore y hy

/-- The last position is filtered on its own; those before it may be judged by what comes before it. -/
theorem filter_range_succ {p q : Nat → Bool} {n : Nat} (hold : ∀ i < n, p i = q i) :
    (List.range (n + 1)).filter p = (List.range n).filter q ++ if p n then [n] else [] := by
  have hinit : (List.range n).filter p = (List.range n).filter q :=
    List.filter_congr fun i hi => hold i (List.mem_range.1 hi)
  rw [List.range_succ, List.filter_append, hinit]
  cases hn : p n with
  | true => simp [hn]
  | false => simp [hn]

/-- A run of elements with a property is known from what it is followed by, if that starts with no such element. -/
theorem append_inj_of_stop {p : α → Prop} {xs ys s t : List α} (hxs : ∀ x ∈ xs, p x) (hys : ∀ y ∈ ys, p y)
    (hs : ∀ x ∈ s.head?, ¬p x) (ht : ∀ y ∈ t.head?, ¬p y) (h : xs ++ s = ys ++ t) : xs = ys ∧ s = t := by
  induction xs generalizing ys with
  | nil =>
      cases ys with
      | nil => exact ⟨rfl, h⟩
      | cons y ys =>
          rw [List.nil_append, List.cons_append] at h
          exact absurd (hys y List.mem_cons_self) (hs y (by rw [h]; rfl))
  | cons x xs ih =>
      cases ys with
      | nil =>
          rw [List.nil_append, List.cons_append] at h
          exact absurd (hxs x List.mem_cons_self) (ht x (by rw [← h]; rfl))
      | cons y ys =>
          rw [List.cons_append, List.cons_append] at h
          obtain ⟨hhead, hrest⟩ := List.cons.inj h
          obtain ⟨htail, hst⟩ := ih (fun z hz => hxs z (List.mem_cons_of_mem _ hz))
            (fun z hz => hys z (List.mem_cons_of_mem _ hz)) hrest
          exact ⟨by rw [hhead, htail], hst⟩

/-- What the first element is mapped to, if it is kept, stands before the others. -/
theorem filterMap_cons_toList {β : Type} {f : α → Option β} (a : α) (as : List α) :
    (a :: as).filterMap f = (f a).toList ++ as.filterMap f := by
  cases h : f a <;> simp [h]

section

variable {ε β γ : Type}

/-- The first failure of several computations, or all of their results, depends on nothing but what each of them gives. -/
theorem mapM_congr {f : α → Except ε γ} {g : β → Except ε γ} {as : List α} {bs : List β} (h : as.map f = bs.map g) :
    as.mapM f = bs.mapM g := by
  induction as generalizing bs with
  | nil =>
      obtain rfl : bs = [] := by simpa using h.symm
      rfl
  | cons a as ih =>
      cases bs with
      | nil => simp at h
      | cons b bs =>
          obtain ⟨hhead, htail⟩ := List.cons.inj h
          rw [List.mapM_cons, List.mapM_cons, hhead, ih htail]

theorem mapM_of_ok {f : α → Except ε β} {as : List α} {bs : List β} (h : as.map f = bs.map .ok) :
    as.mapM f = .ok bs := by
  induction as generalizing bs with
  | nil =>
      obtain rfl : bs = [] := by simpa using h.symm
      rfl
  | cons a as ih =>
      cases bs with
      | nil => simp at h
      | cons b bs =>
          obtain ⟨hhead, htail⟩ := List.cons.inj h
          rw [List.mapM_cons, hhead, ih htail]
          rfl

theorem mapM_of_error {f : α → Except ε β} {front back : List α} {a : α} {e : ε} (hfront : ∀ x ∈ front, ∃ b, f x = .ok b)
    (ha : f a = .error e) : (front ++ a :: back).mapM f = .error e := by
  induction front with
  | nil =>
      rw [List.nil_append, List.mapM_cons, ha]
      rfl
  | cons x front ih =>
      obtain ⟨b, hb⟩ := hfront x List.mem_cons_self
      rw [List.cons_append, List.mapM_cons, hb, ih fun y hy => hfront y (List.mem_cons_of_mem _ hy)]
      rfl

end

end QueryContract
