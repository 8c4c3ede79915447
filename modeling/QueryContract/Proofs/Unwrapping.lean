import QueryContract.Proofs.Precedence

/-!
# `Proofs.Unwrapping` — what a wrapper changes

A wrapper is taken off before a type is classified, and only one question about it is asked afterwards: whether it holds
any number of values. A wrapper that holds at most one value therefore changes nothing about what it holds.

* `SingleValued`            — wrappers that hold at most one value;
* `classify_congr_declared` — the one question;
* `resolve_singleValued`    — the main statement, for any vocabulary, entity type and known element type.
-/

namespace QueryContract.Vocabulary

variable (v : Vocabulary)

/-- The type is a wrapper that holds at most one value. -/
def SingleValued (t : DeclaredType) : Prop :=
  ∃ w, v.wrappers.find? t.simpleName = some w ∧ w.singleValued = true

variable {v} {t declared declared' unwrapped entity inner : DeclaredType}

theorem SingleValued.registered (h : v.SingleValued t) : v.Registered t := by
  obtain ⟨w, hw, -⟩ := h
  exact ⟨w, hw⟩

theorem SingleValued.not_multiValued (h : v.SingleValued t) : ¬v.MultiValued t := by
  obtain ⟨w, hw, hsingle⟩ := h
  rintro ⟨w', hw', hmulti⟩
  rw [hw] at hw'
  injection hw' with hw'
  rw [hw', hmulti] at hsingle
  cases hsingle

theorem MultiValued.registered (h : v.MultiValued t) : v.Registered t := by
  obtain ⟨w, hw, -⟩ := h
  exact ⟨w, hw⟩

/-- **Of the declared type, the shape depends on one thing:** whether it is a wrapper that holds any number of
    values. -/
theorem classify_congr_declared (h : v.MultiValued declared ↔ v.MultiValued declared') :
    v.classify declared unwrapped entity = v.classify declared' unwrapped entity := by
  have hmulti : v.wrappers.isMultiValued declared = v.wrappers.isMultiValued declared' := by
    rw [Bool.eq_iff_iff, ← multiValued_iff, ← multiValued_iff, h]
  unfold classify isSearch hit? isCollection
  rw [hmulti]

/-- **A wrapper that holds at most one value changes nothing about what it holds.** Around a type that is no wrapper
    itself, it is always taken off, and what it holds means the same with it and without it: only the declared type
    differs. -/
theorem resolve_singleValued {path : List String} (more : List DeclaredType) (domain override : Option DeclaredType)
    (hsingle : v.SingleValued (.mk path (inner :: more))) (hinner : ¬v.Registered inner) :
    ∃ r, v.resolve inner domain override = .ok r ∧ r.declared = inner ∧
      v.resolve (.mk path (inner :: more)) domain override = .ok { r with declared := .mk path (inner :: more) } := by
  have hinside : v.Inside inner inner := Or.inr ⟨hinner, rfl⟩
  have hwrapped : v.Inside (.mk path (inner :: more)) inner := Or.inl ⟨hsingle.registered, rfl⟩
  -- neither the wrapper nor what it holds is multi-valued, the one because it is single-valued, the other because it
  -- is no wrapper
  have hmulti : v.MultiValued (.mk path (inner :: more)) ↔ v.MultiValued inner :=
    iff_of_false hsingle.not_multiValued fun h => hinner h.registered
  refine ⟨_, resolve_of_inside hinside, rfl, ?_⟩
  rw [resolve_of_inside hwrapped, classify_congr_declared hmulti]

/-- A vocabulary in which pages are wrappers around at most one value, besides being pages, -/
def pagesWrap : Vocabulary := ⟨WrapperTable.builtin.register Marker.page ⟨.async, true⟩, .builtin⟩

/-- and a list of search hits. -/
def searchHits : DeclaredType := .generic "Vec" [.generic "SearchResult" [.named "User"]]

/-- There, a page of the hits means what the list does. -/
theorem resolve_singleValued_page :
    (pagesWrap.SingleValued (.mk ["Page"] [searchHits, .named "Total"]) ∧ ¬pagesWrap.Registered searchHits) ∧
    ∃ r, pagesWrap.resolve searchHits (some (.named "User")) none = .ok r ∧ r.declared = searchHits ∧
      pagesWrap.resolve (.mk ["Page"] [searchHits, .named "Total"]) (some (.named "User")) none =
        .ok { r with declared := .mk ["Page"] [searchHits, .named "Total"] } := by
  have hsingle : pagesWrap.SingleValued (.mk ["Page"] [searchHits, .named "Total"]) :=
    ⟨⟨.async, true⟩, by decide +kernel, rfl⟩
  have hinner : ¬pagesWrap.Registered searchHits := by
    have hnone : pagesWrap.wrappers.find? searchHits.simpleName = none := by decide +kernel
    rintro ⟨w, hw⟩
    rw [hnone] at hw
    cases hw
  exact ⟨⟨hsingle, hinner⟩, resolve_singleValued _ _ _ hsingle hinner⟩

end QueryContract.Vocabulary
