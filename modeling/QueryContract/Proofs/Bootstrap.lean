import QueryContract.Proofs.FirstAccepted

/-!
# `Proofs.Bootstrap` — which methods bootstrapping looks at

Bootstrapping goes through the table, so a method whose key an earlier method had is never analyzed. What is analyzed
are the **leaders**, the methods that no earlier method shares its key with, and bootstrapping fails with the first
leader that is rejected. A rejected method behind an accepted one of its key goes unnoticed.

* `Leads`, `LeadersAccepted` — leaders among the methods of a list;
* `NothingSwallowed`         — what bootstrapping comes to if every method is analyzed (`swallows_clashing`);
* `bootstrap_verdict`        — what it does come to, and when the two agree.
-/

namespace QueryContract

namespace MethodTable

variable {a : Analyzer} {repository : Repository} {trace : Trace} {ms before later : List Method} {m : Method}

/-! ## Leaders -/

/-- No method before has the key of `m`. -/
def Leads (before : List Method) (m : Method) : Prop := ∀ x ∈ before, x.key ≠ m.key

/-- All methods of a list that are the first of their key are accepted. -/
def LeadersAccepted (a : Analyzer) (repository : Repository) (ms : List Method) : Prop :=
  ∀ before m later, ms = before ++ m :: later → Leads before m → a.Accepts repository m

theorem LeadersAccepted.of_all (h : ∀ x ∈ ms, a.Accepts repository x) : LeadersAccepted a repository ms := by
  rintro before m later rfl -
  exact h m (by simp)

theorem LeadersAccepted.left (h : LeadersAccepted a repository (before ++ later)) :
    LeadersAccepted a repository before := by
  rintro first m rest rfl hleads
  exact h first m (rest ++ later) (by simp) hleads

/-- Where leaders are accepted, every key belongs to an accepted method. -/
theorem LeadersAccepted.exists_accepted (h : LeadersAccepted a repository ms) {k : String} (hk : ∃ x ∈ ms, x.key = k) :
    ∃ x ∈ ms, x.key = k ∧ a.Accepts repository x := by
  obtain ⟨before, x, later, rfl, rfl, hbefore⟩ := exists_first hk
  exact ⟨x, by simp, rfl, h before x later rfl hbefore⟩

/-! ## Calls on a list -/

/-- A call fails when no accepted method had its key and it is rejected. -/
theorem answer_run_eq_error_iff {r : Rejection} : answer (run a repository trace ms) m = .error r ↔
    (∀ x ∈ ms, x.key = m.key → ¬ a.Accepts repository x) ∧ a.describe repository m = .error r := by
  rcases call_cases (run a repository trace ms) m with
    ⟨e, he, hk, hanswer, -⟩ | ⟨d, -, hd, hanswer, -⟩ | ⟨r', hnew, hr, hanswer, -⟩
  · rw [hanswer, ← forall_key_run_iff trace]
    constructor
    · intro h
      cases h
    · rintro ⟨hnone, -⟩
      exact absurd hk (hnone e he)
  · rw [analyzer_run, repository_run] at hd
    rw [hanswer, hd]
    constructor
    · intro h
      cases h
    · rintro ⟨-, h⟩
      cases h
  · rw [analyzer_run, repository_run] at hr
    rw [hanswer, hr, Except.error.injEq, Except.error.injEq]
    exact (and_iff_right ((forall_key_run_iff trace).1 hnew)).symm

/-- Behind accepted leaders, a call fails when the method is a leader and rejected. -/
theorem answer_eq_error_iff_leads (h : LeadersAccepted a repository before) {r : Rejection} :
    answer (run a repository trace before) m = .error r ↔ Leads before m ∧ a.describe repository m = .error r := by
  rw [answer_run_eq_error_iff]
  refine and_congr_left fun _ => ?_
  constructor
  · intro hnone x hx hk
    obtain ⟨y, hy, hyk, haccepts⟩ := h.exists_accepted ⟨x, hx, hk⟩
    exact hnone y hy hyk haccepts
  · intro hleads x hx hk
    exact absurd hk (hleads x hx)

/-- **Calls succeed when the leaders are accepted.** -/
theorem succeed_iff_leadersAccepted (trace : Trace) :
    Succeed (empty a repository, trace) ms ↔ LeadersAccepted a repository ms := by
  constructor
  · -- nothing before a leader has its key, so its call goes to the analyzer
    rintro h before m later rfl hleads
    by_contra hrejected
    obtain ⟨r, hr⟩ := Analyzer.not_accepts_iff.1 hrejected
    have hfail : answer (run a repository trace before) m = .error r :=
      answer_run_eq_error_iff.2 ⟨fun x hx hk => absurd hk (hleads x hx), hr⟩
    obtain ⟨e, he⟩ := h before m later rfl
    rw [run, he] at hfail
    cases hfail
  · -- a call that fails is that of a rejected leader
    rintro h before m later rfl
    cases hanswer : answer (run a repository trace before) m with
    | ok e => exact ⟨e, hanswer⟩
    | error r =>
        obtain ⟨hleads, hr⟩ := (answer_eq_error_iff_leads h.left).1 hanswer
        exact absurd (h before m later rfl hleads) (Analyzer.not_accepts_iff.2 ⟨r, hr⟩)

/-! ## Bootstrapping -/

/-- Bootstrapping succeeds when the leaders are accepted. -/
theorem bootstrap_ok_iff (trace : Trace) :
    (∃ t, (bootstrap a repository ms trace).1 = .ok t) ↔ LeadersAccepted a repository ms := by
  rw [← succeed_iff_leadersAccepted trace]
  constructor
  · rintro ⟨t, ht⟩
    rcases succeed_or_fail (empty a repository, trace) ms with h | ⟨before, m, later, r, rfl, h, hm⟩
    · exact h
    · rw [bootstrap_of_fail h hm] at ht
      cases ht
  · intro h
    rw [bootstrap_of_succeed h]
    exact ⟨_, rfl⟩

/-- Bootstrapping fails with the first leader that is rejected. -/
theorem bootstrap_error_iff {r : Rejection} : (bootstrap a repository ms trace).1 = .error r ↔
    ∃ before m later, ms = before ++ m :: later ∧ LeadersAccepted a repository before ∧ Leads before m ∧
      a.describe repository m = .error r := by
  constructor
  · intro herror
    rcases succeed_or_fail (empty a repository, trace) ms with h | ⟨before, m, later, r', rfl, h, hm⟩
    · rw [bootstrap_of_succeed h] at herror
      cases herror
    · rw [bootstrap_of_fail h hm] at herror
      obtain rfl := Except.error.inj herror
      have hleaders := (succeed_iff_leadersAccepted trace).1 h
      exact ⟨before, m, later, rfl, hleaders, (answer_eq_error_iff_leads hleaders).1 hm⟩
  · rintro ⟨before, m, later, rfl, hleaders, hm⟩
    have hsucceed := (succeed_iff_leadersAccepted trace).2 hleaders
    have hfail : answer (run a repository trace before) m = .error r := (answer_eq_error_iff_leads hleaders).2 hm
    rw [bootstrap_of_fail hsucceed hfail]

/-! ## What is swallowed -/

/-- **What bootstrapping comes to if no rejected method is swallowed:** it succeeds when all methods are accepted, and
    fails with the first that is not. -/
structure NothingSwallowed (a : Analyzer) (repository : Repository) (ms : List Method)
    (out : Except Rejection MethodTable) : Prop where
  ok_iff : (∃ t, out = .ok t) ↔ ∀ m ∈ ms, a.Accepts repository m
  error_iff : ∀ r, out = .error r ↔ ∃ before m later, ms = before ++ m :: later ∧
    (∀ x ∈ before, a.Accepts repository x) ∧ a.describe repository m = .error r

/-- A repository of users. -/
def users : Repository := .ofBindings (some "UserRepository") (some (.named "User")) []

/-- A method that asks for a page and returns one. -/
def findPage : Method :=
  { name := "find_all", parameters := [⟨some "page", .named "Pageable"⟩], result := .generic "Page" [.named "User"] }

/-- A method that asks for a page and returns a single user, which no method may. Its key is that of `findPage`. -/
def findPageOfOne : Method := { findPage with result := .named "User" }

/-- **Bootstrapping swallows rejected methods:** behind `findPage`, the rejected `findPageOfOne` is not noticed. -/
theorem swallows_clashing : ¬ NothingSwallowed .builtin users [findPage, findPageOfOne]
    (bootstrap .builtin users [findPage, findPageOfOne] .empty).1 := by
  intro h
  have hok : (bootstrap .builtin users [findPage, findPageOfOne] .empty).1.isOk = true := by decide +kernel
  have hrejected : ¬ Analyzer.builtin.Accepts users findPageOfOne := by decide +kernel
  cases hboot : (bootstrap .builtin users [findPage, findPageOfOne] .empty).1 with
  | ok t => exact hrejected (h.ok_iff.1 ⟨t, hboot⟩ findPageOfOne (by simp))
  | error r =>
      rw [hboot] at hok
      cases hok

/-- A rejected method is behind accepted ones, or there is none. -/
theorem accepted_or_first_rejected (a : Analyzer) (repository : Repository) (ms : List Method) :
    (∀ x ∈ ms, a.Accepts repository x) ∨ ∃ before m later r, ms = before ++ m :: later ∧
      (∀ x ∈ before, a.Accepts repository x) ∧ a.describe repository m = .error r := by
  by_cases h : ∃ x ∈ ms, ¬ a.Accepts repository x
  · obtain ⟨before, m, later, hms, hm, hbefore⟩ := exists_first h
    obtain ⟨r, hr⟩ := Analyzer.not_accepts_iff.1 hm
    exact .inr ⟨before, m, later, r, hms, fun x hx => not_not.1 (hbefore x hx), hr⟩
  · refine .inl fun x hx => ?_
    by_contra hx'
    exact h ⟨x, hx, hx'⟩

/-- If bootstrapping reports the first rejected method, that method is a leader. -/
theorem leads_of_bootstrap_error {r : Rejection} (hbefore : ∀ x ∈ before, a.Accepts repository x)
    (hr : a.describe repository m = .error r)
    (hboot : (bootstrap a repository (before ++ m :: later) trace).1 = .error r) : Leads before m := by
  obtain ⟨before', m', later', hms, -, hleads, hr'⟩ := bootstrap_error_iff.1 hboot
  -- both are the method that the rejection names, so they have one key
  have hm : m' = m := (Analyzer.method_of_reject hr').symm.trans (Analyzer.method_of_reject hr)
  rw [hm] at hms hleads
  rcases List.append_eq_append_iff.1 hms with ⟨mid, hbefore', hmid⟩ | ⟨mid, hbefore', hmid⟩
  · intro x hx
    exact hleads x (hbefore' ▸ List.mem_append_left mid hx)
  · cases mid with
    | nil =>
        rw [List.append_nil] at hbefore'
        rw [hbefore']
        exact hleads
    | cons x mid =>
        -- the reported occurrence would be an accepted one
        obtain ⟨rfl, -⟩ := List.cons.inj hmid
        have hmem : m ∈ before := by
          rw [hbefore']
          simp
        exact absurd (hbefore m hmem) (Analyzer.not_accepts_iff.2 ⟨r, hr⟩)

/-- **When nothing is swallowed:** the first rejected method, if there is one, is a leader. -/
theorem nothingSwallowed_iff : NothingSwallowed a repository ms (bootstrap a repository ms trace).1 ↔
    ∀ before m later, ms = before ++ m :: later → (∀ x ∈ before, a.Accepts repository x) →
      ¬ a.Accepts repository m → Leads before m := by
  constructor
  · rintro h before m later rfl hbefore hm
    obtain ⟨r, hr⟩ := Analyzer.not_accepts_iff.1 hm
    exact leads_of_bootstrap_error hbefore hr ((h.error_iff r).2 ⟨before, m, later, rfl, hbefore, hr⟩)
  · intro h
    have hfails : ∀ before m later r, ms = before ++ m :: later → (∀ x ∈ before, a.Accepts repository x) →
        a.describe repository m = .error r → (bootstrap a repository ms trace).1 = .error r := by
      intro before m later r hms hbefore hr
      have hleads := h before m later hms hbefore (Analyzer.not_accepts_iff.2 ⟨r, hr⟩)
      exact bootstrap_error_iff.2 ⟨before, m, later, hms, .of_all hbefore, hleads, hr⟩
    constructor
    · constructor
      · rintro ⟨t, ht⟩
        rcases accepted_or_first_rejected a repository ms with hall | ⟨before, m, later, r, hms, hbefore, hr⟩
        · exact hall
        · rw [hfails before m later r hms hbefore hr] at ht
          cases ht
      · intro hall
        exact (bootstrap_ok_iff trace).2 (.of_all hall)
    · intro r
      constructor
      · intro hboot
        rcases accepted_or_first_rejected a repository ms with hall | ⟨before, m, later, r', hms, hbefore, hr⟩
        · obtain ⟨t, ht⟩ := (bootstrap_ok_iff trace).2 (.of_all hall)
          rw [hboot] at ht
          cases ht
        · rw [hfails before m later r' hms hbefore hr] at hboot
          obtain rfl := Except.error.inj hboot
          exact ⟨before, m, later, hms, hbefore, hr⟩
      · rintro ⟨before, m, later, hms, hbefore, hr⟩
        exact hfails before m later r hms hbefore hr

/-- **The verdict of bootstrapping.** It succeeds when all leaders are accepted, fails with the first rejected leader,
    and swallows no rejected method exactly if the first one is a leader. -/
theorem bootstrap_verdict (a : Analyzer) (repository : Repository) (ms : List Method) (trace : Trace) :
    ((∃ t, (bootstrap a repository ms trace).1 = .ok t) ↔ LeadersAccepted a repository ms) ∧
    (∀ r, (bootstrap a repository ms trace).1 = .error r ↔
      ∃ before m later, ms = before ++ m :: later ∧ LeadersAccepted a repository before ∧ Leads before m ∧
        a.describe repository m = .error r) ∧
    (NothingSwallowed a repository ms (bootstrap a repository ms trace).1 ↔
      ∀ before m later, ms = before ++ m :: later → (∀ x ∈ before, a.Accepts repository x) →
        ¬ a.Accepts repository m → Leads before m) :=
  ⟨bootstrap_ok_iff trace, fun _ => bootstrap_error_iff, nothingSwallowed_iff⟩

end MethodTable

end QueryContract
