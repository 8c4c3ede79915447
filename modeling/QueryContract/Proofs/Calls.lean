import Mathlib.Data.List.Induction
import Mathlib.Data.List.Nodup
import QueryContract.MethodTable
import QueryContract.Proofs.Exits

/-!
# `Proofs.Calls` — a table under a sequence of calls

A call either finds the entry of its key, or makes one, or is refused, and only the second changes the table. Everything
that holds of a table whatever was called before is derived from these three cases.

* `MethodTable.Call`    — what one call does;
* `MethodTable.Sound`   — the invariant: what is stored, under which key and in which span;
* `MethodTable.calls`   — the state after a sequence of calls (`sound_calls`, `calls_grow`);
* `bootstrap_of_succeed`, `bootstrap_of_fail` — bootstrapping is calling until one call is refused.
-/

namespace QueryContract

namespace Analyzer

variable {a : Analyzer} {repository : Repository} {m : Method}

/-- Whether a method is accepted. -/
def Accepts (a : Analyzer) (repository : Repository) (m : Method) : Prop :=
  ∃ d, a.describe repository m = .ok d

theorem not_accepts_iff : ¬ a.Accepts repository m ↔ ∃ r, a.describe repository m = .error r := by
  unfold Accepts
  cases a.describe repository m <;> simp

instance : Decidable (a.Accepts repository m) :=
  match h : a.describe repository m with
  | .ok d => .isTrue ⟨d, h⟩
  | .error r => .isFalse (not_accepts_iff.2 ⟨r, h⟩)

end Analyzer

namespace MethodTable

variable {t : MethodTable} {trace : Trace} {m : Method} {e : Entry}

/-! ## One call -/

/-- The entry that a call makes of a description. -/
def made (m : Method) (trace : Trace) (d : Description) : Entry := ⟨m.key, trace.nextSpan, d⟩

/-- The trace after one more method went through the analyzer. -/
def traced (t : MethodTable) (m : Method) (trace : Trace) : Trace := (t.analyzer.trace t.repository m trace).2

/-- **What one call does:** its answer, the table and the trace afterwards. -/
inductive Call (t : MethodTable) (m : Method) (trace : Trace) : Except Rejection Entry × MethodTable × Trace → Prop
  /-- The key is known: its entry is the answer, and nothing else about the method matters. -/
  | known {e : Entry} : e ∈ t.entries → e.key = m.key → Call t m trace (.ok e, t, trace.withHit m.key)
  /-- The key is new and the method is accepted: a new entry is stored after all others. -/
  | stored {d : Description} : (∀ e ∈ t.entries, e.key ≠ m.key) → t.analyzer.describe t.repository m = .ok d →
      Call t m trace (.ok (made m trace d), t.add (made m trace d), t.traced m trace)
  /-- The key is new and the method is rejected: nothing is stored. -/
  | refused {r : Rejection} : (∀ e ∈ t.entries, e.key ≠ m.key) → t.analyzer.describe t.repository m = .error r →
      Call t m trace (.error r, t, t.traced m trace)

@[simp] theorem entries_empty (a : Analyzer) (repository : Repository) : (empty a repository).entries = [] := rfl
@[simp] theorem entries_add : (t.add e).entries = t.entries ++ [e] := rfl
@[simp] theorem analyzer_add : (t.add e).analyzer = t.analyzer := rfl
@[simp] theorem repository_add : (t.add e).repository = t.repository := rfl
@[simp] theorem spans_withHit {key : String} : (trace.withHit key).spans = trace.spans := rfl
@[simp] theorem spans_traced : (t.traced m trace).spans = trace.spans + 1 :=
  (t.analyzer.trace_eq t.repository m trace).2

theorem find?_eq_none_iff {k : String} : t.find? k = none ↔ ∀ e ∈ t.entries, e.key ≠ k := by
  unfold find?
  simp only [List.find?_eq_none, decide_eq_true_eq, ne_eq]

theorem of_find?_eq_some {k : String} (h : t.find? k = some e) : e ∈ t.entries ∧ e.key = k := by
  unfold find? at h
  exact ⟨List.mem_of_find?_eq_some h, by simpa using List.find?_some h⟩

/-- A call does one of the three. -/
theorem call_describe (t : MethodTable) (m : Method) (trace : Trace) : Call t m trace (t.describe m trace) := by
  unfold describe
  cases hfind : t.find? m.key with
  | some e =>
      obtain ⟨he, hk⟩ := of_find?_eq_some hfind
      exact .known he hk
  | none =>
      have hnew := find?_eq_none_iff.1 hfind
      have hresult := (t.analyzer.trace_eq t.repository m trace).1
      cases htrace : t.analyzer.trace t.repository m trace with
      | mk out after =>
          have hafter : t.traced m trace = after := congrArg Prod.snd htrace
          rw [htrace] at hresult
          rw [← hafter]
          cases out with
          | ok d => exact .stored hnew hresult.symm
          | error r => exact .refused hnew hresult.symm

/-- A call only ever adds to the end. -/
theorem Call.grows {answer : Except Rejection Entry} {t' : MethodTable} {trace' : Trace}
    (h : Call t m trace (answer, t', trace')) : t.entries <+: t'.entries := by
  cases h with
  | known _ _ => exact List.prefix_rfl
  | stored _ _ => exact List.prefix_append _ _
  | refused _ _ => exact List.prefix_rfl

/-- The analyzer and the repository of a table stay what they are. -/
theorem Call.setting {answer : Except Rejection Entry} {t' : MethodTable} {trace' : Trace}
    (h : Call t m trace (answer, t', trace')) : t'.analyzer = t.analyzer ∧ t'.repository = t.repository := by
  cases h with
  | known _ _ => exact ⟨rfl, rfl⟩
  | stored _ _ => exact ⟨analyzer_add, repository_add⟩
  | refused _ _ => exact ⟨rfl, rfl⟩

/-! ## The invariant -/

/-- **What holds of every table**, whatever was called before. -/
structure Sound (t : MethodTable) (trace : Trace) : Prop where
  /-- A description is what the analyzer makes of its method. -/
  described : ∀ e ∈ t.entries, t.analyzer.describe t.repository e.description.method = .ok e.description
  /-- It is stored under the key of its method. -/
  keyed : ∀ e ∈ t.entries, e.key = e.description.method.key
  /-- No key is stored twice. -/
  keys_distinct : (t.entries.map Entry.key).Nodup
  /-- Entries are in the order in which they were made. -/
  spans_ascending : (t.entries.map Entry.span).Pairwise (· < ·)
  /-- Entries were made in spans that are over. -/
  spans_past : ∀ e ∈ t.entries, e.span ≤ trace.spans

namespace Sound

theorem empty (a : Analyzer) (repository : Repository) (trace : Trace) :
    Sound (MethodTable.empty a repository) trace := by
  constructor <;> simp

/-- Spans only ever pass. -/
theorem later {trace' : Trace} (h : Sound t trace) (hle : trace.spans ≤ trace'.spans) : Sound t trace' :=
  { h with spans_past := fun e he => Nat.le_trans (h.spans_past e he) hle }

/-- An accepted method of a new key is stored soundly. -/
theorem add {d : Description} (h : Sound t trace) (hnew : ∀ e ∈ t.entries, e.key ≠ m.key)
    (hd : t.analyzer.describe t.repository m = .ok d) : Sound (t.add (made m trace d)) (t.traced m trace) := by
  have hm : d.method = m := Analyzer.method_of_describe hd
  have hspan : (made m trace d).span = trace.spans + 1 := rfl
  have hkey : (made m trace d).key = m.key := rfl
  constructor
  · intro e he
    rw [entries_add, List.mem_append, List.mem_singleton] at he
    rcases he with he | rfl
    · exact h.described e he
    · show t.analyzer.describe t.repository d.method = .ok d
      rw [hm, hd]
  · intro e he
    rw [entries_add, List.mem_append, List.mem_singleton] at he
    rcases he with he | rfl
    · exact h.keyed e he
    · show m.key = d.method.key
      rw [hm]
  · -- the new key is apart from those that are stored
    rw [entries_add, List.map_append, List.map_singleton, hkey, List.nodup_append]
    refine ⟨h.keys_distinct, List.nodup_singleton _, ?_⟩
    intro k hk k' hk'
    rw [List.mem_singleton] at hk'
    obtain ⟨e, he, rfl⟩ := List.mem_map.1 hk
    rw [hk']
    exact hnew e he
  · -- the new span is after those that are over
    rw [entries_add, List.map_append, List.map_singleton, hspan, List.pairwise_append]
    refine ⟨h.spans_ascending, List.pairwise_singleton _ _, ?_⟩
    intro n hn n' hn'
    rw [List.mem_singleton] at hn'
    obtain ⟨e, he, rfl⟩ := List.mem_map.1 hn
    rw [hn']
    exact Nat.lt_succ_of_le (h.spans_past e he)
  · intro e he
    rw [entries_add, List.mem_append, List.mem_singleton] at he
    rw [spans_traced]
    rcases he with he | rfl
    · exact Nat.le_succ_of_le (h.spans_past e he)
    · exact Nat.le_of_eq hspan

/-- **A call keeps the invariant.** -/
theorem call {answer : Except Rejection Entry} {t' : MethodTable} {trace' : Trace} (h : Sound t trace)
    (hcall : Call t m trace (answer, t', trace')) : Sound t' trace' := by
  cases hcall with
  | known _ _ => exact h.later (Nat.le_of_eq spans_withHit.symm)
  | stored hnew hd => exact h.add hnew hd
  | refused _ _ => exact h.later (by rw [spans_traced]; exact Nat.le_succ _)

/-- A stored entry is found by its key, and only by it. -/
theorem find?_eq_some_iff (h : Sound t trace) {k : String} : t.find? k = some e ↔ e ∈ t.entries ∧ e.key = k := by
  constructor
  · exact of_find?_eq_some
  · rintro ⟨he, hk⟩
    cases hfind : t.find? k with
    | none => exact absurd hk (find?_eq_none_iff.1 hfind e he)
    | some e' =>
        obtain ⟨he', hk'⟩ := of_find?_eq_some hfind
        rw [List.inj_on_of_nodup_map h.keys_distinct he' he (hk'.trans hk.symm)]

end Sound

/-! ## Sequences of calls -/

/-- The table and the trace after one more call. -/
def call (s : MethodTable × Trace) (m : Method) : MethodTable × Trace := (s.1.describe m s.2).2

/-- The answer to one more call. -/
def answer (s : MethodTable × Trace) (m : Method) : Except Rejection Entry := (s.1.describe m s.2).1

/-- The table and the trace after calls in order, some of which may fail. -/
def calls (s : MethodTable × Trace) (ms : List Method) : MethodTable × Trace := ms.foldl call s

/-- The table and the trace after calls on a new table. -/
def run (a : Analyzer) (repository : Repository) (trace : Trace) (ms : List Method) : MethodTable × Trace :=
  calls (empty a repository, trace) ms

variable {s : MethodTable × Trace} {a : Analyzer} {repository : Repository}

@[simp] theorem calls_nil : calls s [] = s := rfl

@[simp] theorem calls_cons {ms : List Method} : calls s (m :: ms) = calls (call s m) ms := rfl

theorem calls_append {ms later : List Method} : calls s (ms ++ later) = calls (calls s ms) later := by
  unfold calls
  rw [List.foldl_append]

theorem run_append {ms later : List Method} :
    run a repository trace (ms ++ later) = calls (run a repository trace ms) later := calls_append

theorem run_snoc {ms : List Method} : run a repository trace (ms ++ [m]) = call (run a repository trace ms) m :=
  run_append

/-- One more call is a call. -/
theorem call_spec (s : MethodTable × Trace) (m : Method) : Call s.1 m s.2 (answer s m, call s m) :=
  call_describe s.1 m s.2

/-- The three things that one more call can do, as equations. -/
theorem call_cases (s : MethodTable × Trace) (m : Method) :
    (∃ e ∈ s.1.entries, e.key = m.key ∧ answer s m = .ok e ∧ call s m = (s.1, s.2.withHit m.key)) ∨
    (∃ d, (∀ e ∈ s.1.entries, e.key ≠ m.key) ∧ s.1.analyzer.describe s.1.repository m = .ok d ∧
      answer s m = .ok (made m s.2 d) ∧ call s m = (s.1.add (made m s.2 d), s.1.traced m s.2)) ∨
    (∃ r, (∀ e ∈ s.1.entries, e.key ≠ m.key) ∧ s.1.analyzer.describe s.1.repository m = .error r ∧
      answer s m = .error r ∧ call s m = (s.1, s.1.traced m s.2)) := by
  -- the answer and the next state are no variables, so the cases of a call are taken after naming them
  have hcall := call_spec s m
  generalize answer s m = answered, call s m = next at hcall ⊢
  cases hcall with
  | known he hk => exact .inl ⟨_, he, hk, rfl, rfl⟩
  | stored hnew hd => exact .inr (.inl ⟨_, hnew, hd, rfl, rfl⟩)
  | refused hnew hr => exact .inr (.inr ⟨_, hnew, hr, rfl, rfl⟩)

/-- **Entries are never replaced, moved or removed.** -/
theorem calls_grow (s : MethodTable × Trace) (ms : List Method) : s.1.entries <+: (calls s ms).1.entries := by
  induction ms generalizing s with
  | nil => exact List.prefix_rfl
  | cons m ms ih => exact (call_spec s m).grows.trans (ih (call s m))

/-- **Whatever is called, the invariant holds.** -/
theorem sound_calls (h : Sound s.1 s.2) (ms : List Method) : Sound (calls s ms).1 (calls s ms).2 := by
  induction ms generalizing s with
  | nil => exact h
  | cons m ms ih => exact ih (h.call (call_spec s m))

theorem sound_run (a : Analyzer) (repository : Repository) (trace : Trace) (ms : List Method) :
    Sound (run a repository trace ms).1 (run a repository trace ms).2 :=
  sound_calls (Sound.empty a repository trace) ms

/-- Calls do not change what a table belongs to. -/
theorem setting_calls (s : MethodTable × Trace) (ms : List Method) :
    (calls s ms).1.analyzer = s.1.analyzer ∧ (calls s ms).1.repository = s.1.repository := by
  induction ms generalizing s with
  | nil => exact ⟨rfl, rfl⟩
  | cons m ms ih =>
      obtain ⟨ha, hr⟩ := (call_spec s m).setting
      rw [calls_cons, (ih (call s m)).1, (ih (call s m)).2]
      exact ⟨ha, hr⟩

@[simp] theorem analyzer_run {ms : List Method} : (run a repository trace ms).1.analyzer = a :=
  (setting_calls (empty a repository, trace) ms).1

@[simp] theorem repository_run {ms : List Method} : (run a repository trace ms).1.repository = repository :=
  (setting_calls (empty a repository, trace) ms).2

/-! ## Describing a list -/

/-- None of the calls fails. -/
def Succeed (s : MethodTable × Trace) (ms : List Method) : Prop :=
  ∀ before m later, ms = before ++ m :: later → ∃ e, answer (calls s before) m = .ok e

theorem succeed_nil : Succeed s [] := by
  intro before m later h
  simp at h

theorem succeed_cons {ms : List Method} :
    Succeed s (m :: ms) ↔ (∃ e, answer s m = .ok e) ∧ Succeed (call s m) ms := by
  constructor
  · intro h
    refine ⟨h [] m ms rfl, ?_⟩
    rintro before m' later rfl
    exact h (m :: before) m' later rfl
  · rintro ⟨hm, h⟩ before m' later hms
    cases before with
    | nil =>
        obtain ⟨rfl, -⟩ := List.cons.inj hms
        exact hm
    | cons x before =>
        obtain ⟨rfl, htail⟩ := List.cons.inj hms
        exact h before m' later htail

theorem describeAll_cons_of_ok {ms : List Method} (h : answer s m = .ok e) :
    s.1.describeAll (m :: ms) s.2 = (call s m).1.describeAll ms (call s m).2 := by
  unfold answer at h
  unfold call
  rw [describeAll]
  split
  next hd => rw [hd]
  next hd => rw [hd] at h; cases h

theorem describeAll_cons_of_error {r : Rejection} {ms : List Method} (h : answer s m = .error r) :
    s.1.describeAll (m :: ms) s.2 = (.error r, (call s m).2) := by
  unfold answer at h
  unfold call
  rw [describeAll]
  split
  next hd => rw [hd] at h; cases h
  next hd => rw [hd] at h ⊢; rw [Except.error.inj h]

/-- **Describing a list gives the table after the calls,** if none of them fails. -/
theorem describeAll_of_succeed {ms : List Method} (h : Succeed s ms) :
    s.1.describeAll ms s.2 = (.ok (calls s ms).1, (calls s ms).2) := by
  induction ms generalizing s with
  | nil => rfl
  | cons m ms ih =>
      obtain ⟨⟨e, he⟩, h⟩ := succeed_cons.1 h
      rw [describeAll_cons_of_ok he, ih h, calls_cons]

/-- **Describing a list stops at the first call that fails.** -/
theorem describeAll_of_fail {r : Rejection} {before later : List Method} (h : Succeed s before)
    (hm : answer (calls s before) m = .error r) :
    s.1.describeAll (before ++ m :: later) s.2 = (.error r, (calls s (before ++ [m])).2) := by
  induction before generalizing s with
  | nil => exact describeAll_cons_of_error hm
  | cons x before ih =>
      obtain ⟨⟨e, he⟩, h⟩ := succeed_cons.1 h
      rw [List.cons_append, describeAll_cons_of_ok he, ih h hm, List.cons_append, calls_cons]

/-- Calls succeed up to the first one that fails. -/
theorem succeed_or_fail (s : MethodTable × Trace) (ms : List Method) :
    Succeed s ms ∨ ∃ before m later r, ms = before ++ m :: later ∧ Succeed s before ∧
      answer (calls s before) m = .error r := by
  induction ms generalizing s with
  | nil => exact .inl succeed_nil
  | cons m ms ih =>
      cases hm : answer s m with
      | error r => exact .inr ⟨[], m, ms, r, rfl, succeed_nil, hm⟩
      | ok e =>
          rcases ih (call s m) with h | ⟨before, m', later, r, rfl, h, hm'⟩
          · exact .inl (succeed_cons.2 ⟨⟨e, hm⟩, h⟩)
          · exact .inr ⟨m :: before, m', later, r, rfl, succeed_cons.2 ⟨⟨e, hm⟩, h⟩, hm'⟩

/-- Bootstrapping gives the table after the calls, if none of them fails, -/
theorem bootstrap_of_succeed {ms : List Method} (h : Succeed (empty a repository, trace) ms) :
    bootstrap a repository ms trace = (.ok (run a repository trace ms).1, (run a repository trace ms).2) :=
  describeAll_of_succeed h

/-- and stops at the first call that fails. -/
theorem bootstrap_of_fail {r : Rejection} {before later : List Method}
    (h : Succeed (empty a repository, trace) before) (hm : answer (run a repository trace before) m = .error r) :
    bootstrap a repository (before ++ m :: later) trace =
      (.error r, (run a repository trace (before ++ [m])).2) :=
  describeAll_of_fail h hm

end MethodTable

end QueryContract
