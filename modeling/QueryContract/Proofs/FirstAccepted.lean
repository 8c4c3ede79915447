import Mathlib.Data.List.Forall2
import QueryContract.Proofs.Calls
import QueryContract.Proofs.Lists

/-!
# `Proofs.FirstAccepted` — what a table holds

After any calls on a new table, it holds one entry for each key that some accepted method had: the one that the first
such call made, in the order of these calls. A rejected method leaves no trace in the table, so it neither takes a key
nor blocks it.

* `MethodTable.storing`           — the positions of the calls that store, from the calls alone;
* `MethodTable.FirstAccepted`     — the whole of what is true of the table afterwards, and of the next call;
* `MethodTable.run_firstAccepted` — the main statement, for any analyzer, repository, trace and calls.
-/

namespace QueryContract

namespace MethodTable

variable {a : Analyzer} {repository : Repository} {trace : Trace} {ms : List Method} {m : Method}

/-! ## The calls that store -/

/-- After the calls `before`, a call of `m` stores: `m` is accepted, and no accepted method with its key was called. -/
def Stores (a : Analyzer) (repository : Repository) (before : List Method) (m : Method) : Prop :=
  a.Accepts repository m ∧ ∀ x ∈ before, x.key = m.key → ¬ a.Accepts repository x

instance {before : List Method} : Decidable (Stores a repository before m) := inferInstanceAs (Decidable (_ ∧ _))

/-- The positions of the calls that store, in ascending order. -/
def storing (a : Analyzer) (repository : Repository) (ms : List Method) : List Nat :=
  (List.range ms.length).filter fun i => ∃ m ∈ ms[i]?, Stores a repository (ms.take i) m

/-- One more call adds its position if it stores. -/
theorem storing_snoc : storing a repository (ms ++ [m]) =
    storing a repository ms ++ if Stores a repository ms m then [ms.length] else [] := by
  have hnew : (∃ x ∈ (ms ++ [m])[ms.length]?, Stores a repository ((ms ++ [m]).take ms.length) x) ↔
      Stores a repository ms m := by
    rw [List.getElem?_concat_length, List.take_left]
    simp only [Option.mem_some_iff, exists_eq_left']
  unfold storing
  rw [List.length_append, List.length_singleton,
    filter_range_succ (q := fun i => ∃ x ∈ ms[i]?, Stores a repository (ms.take i) x)]
  · simp only [hnew, decide_eq_true_eq]
  · -- what a call stores depends on the calls before it, and these are the same
    intro i hi
    rw [List.getElem?_append_left hi, List.take_append_of_le_length (Nat.le_of_lt hi)]

/-! ## The entries -/

/-- The entry that the call at a position made. -/
structure MadeAt (a : Analyzer) (repository : Repository) (trace : Trace) (ms : List Method) (i : Nat) (e : Entry) :
    Prop where
  /-- It describes the method of that call, -/
  method : ms[i]? = some e.description.method
  /-- as the analyzer does, -/
  described : a.describe repository e.description.method = .ok e.description
  /-- under the key of that method, -/
  key : e.key = e.description.method.key
  /-- in the span of that call, -/
  span : e.span = (run a repository trace (ms.take i)).2.nextSpan
  /-- and that call was answered with it. -/
  answered : answer (run a repository trace (ms.take i)) e.description.method = .ok e

/-- What a call made is not changed by later calls. -/
theorem MadeAt.append (later : List Method) {i : Nat} {e : Entry} (h : MadeAt a repository trace ms i e) :
    MadeAt a repository trace (ms ++ later) i e := by
  have hi : i < ms.length := (List.getElem?_eq_some_iff.1 h.method).1
  have htake : (ms ++ later).take i = ms.take i := List.take_append_of_le_length (Nat.le_of_lt hi)
  constructor
  · rw [List.getElem?_append_left hi, h.method]
  · exact h.described
  · exact h.key
  · rw [htake, h.span]
  · rw [htake, h.answered]

/-- The entry of a call that stores. -/
theorem madeAt_length {d : Description} (hd : a.describe repository m = .ok d)
    (hanswer : answer (run a repository trace ms) m = .ok (made m (run a repository trace ms).2 d)) :
    MadeAt a repository trace (ms ++ [m]) ms.length (made m (run a repository trace ms).2 d) := by
  have hm : d.method = m := Analyzer.method_of_describe hd
  have hmade : (made m (run a repository trace ms).2 d).description.method = m := hm
  constructor
  · rw [List.getElem?_concat_length, hmade]
  · rw [hmade]
    exact hd
  · rw [hmade]
    rfl
  · rw [List.take_left]
    rfl
  · rw [List.take_left, hmade, hanswer]

/-- **A key is stored when an accepted method had it.** -/
theorem exists_key_run_iff (trace : Trace) {k : String} :
    (∃ e ∈ (run a repository trace ms).1.entries, e.key = k) ↔ ∃ x ∈ ms, x.key = k ∧ a.Accepts repository x := by
  induction ms using List.reverseRecOn with
  | nil => simp [run]
  | append_singleton ms m ih =>
      have hsplit : (∃ x ∈ ms ++ [m], x.key = k ∧ a.Accepts repository x) ↔
          (∃ x ∈ ms, x.key = k ∧ a.Accepts repository x) ∨ (m.key = k ∧ a.Accepts repository m) := by
        simp only [List.mem_append, List.mem_singleton, or_and_right, exists_or, exists_eq_left]
      rw [hsplit, ← ih, run_snoc]
      rcases call_cases (run a repository trace ms) m with
        ⟨e, he, hk, -, hcall⟩ | ⟨d, -, hd, -, hcall⟩ | ⟨r, -, hr, -, hcall⟩
      · rw [hcall]
        -- an accepted method of a known key brings no key that is not there
        refine (or_iff_left_of_imp ?_).symm
        rintro ⟨rfl, -⟩
        exact ⟨e, he, hk⟩
      · rw [analyzer_run, repository_run] at hd
        rw [hcall, entries_add]
        simp only [List.mem_append, List.mem_singleton, or_and_right, exists_or, exists_eq_left]
        exact or_congr_right (and_iff_left ⟨d, hd⟩).symm
      · rw [analyzer_run, repository_run] at hr
        rw [hcall]
        -- a rejected method brings no key either
        refine (or_iff_left_of_imp ?_).symm
        rintro ⟨-, haccepts⟩
        exact absurd haccepts (Analyzer.not_accepts_iff.2 ⟨r, hr⟩)

/-- No key is stored that only rejected methods had. -/
theorem forall_key_run_iff (trace : Trace) {k : String} :
    (∀ e ∈ (run a repository trace ms).1.entries, e.key ≠ k) ↔ ∀ x ∈ ms, x.key = k → ¬ a.Accepts repository x := by
  have h : ¬ (∃ e ∈ (run a repository trace ms).1.entries, e.key = k) ↔
      ¬ ∃ x ∈ ms, x.key = k ∧ a.Accepts repository x := not_congr (exists_key_run_iff trace)
  simpa only [not_exists, not_and] using h

/-- **The entries are those of the calls that store, in the order of these calls.** -/
theorem entries_made (a : Analyzer) (repository : Repository) (trace : Trace) (ms : List Method) :
    List.Forall₂ (MadeAt a repository trace ms) (storing a repository ms) (run a repository trace ms).1.entries := by
  induction ms using List.reverseRecOn with
  | nil => exact .nil
  | append_singleton ms m ih =>
      -- the last call either adds its own entry, or no entry and no position
      have hkept := ih.imp fun i e h => MadeAt.append [m] h
      rw [storing_snoc, run_snoc]
      rcases call_cases (run a repository trace ms) m with
        ⟨e, he, hk, -, hcall⟩ | ⟨d, hnew, hd, hanswer, hcall⟩ | ⟨r, -, hr, -, hcall⟩
      · have hno : ¬ Stores a repository ms m := fun h => (forall_key_run_iff trace).2 h.2 e he hk
        rw [hcall, if_neg hno, List.append_nil]
        exact hkept
      · rw [analyzer_run, repository_run] at hd
        have hyes : Stores a repository ms m := ⟨⟨d, hd⟩, (forall_key_run_iff _).1 hnew⟩
        rw [hcall, if_pos hyes, entries_add]
        exact List.rel_append hkept (.cons (madeAt_length hd hanswer) .nil)
      · rw [analyzer_run, repository_run] at hr
        have hno : ¬ Stores a repository ms m := fun h => Analyzer.not_accepts_iff.2 ⟨r, hr⟩ h.1
        rw [hcall, if_neg hno, List.append_nil]
        exact hkept

/-- Every entry was made by a call that stores. -/
theorem exists_madeAt {e : Entry} (he : e ∈ (run a repository trace ms).1.entries) :
    ∃ i ∈ storing a repository ms, MadeAt a repository trace ms i e := by
  obtain ⟨hlength, hmade⟩ := List.forall₂_iff_get.1 (entries_made a repository trace ms)
  obtain ⟨n, hn, rfl⟩ := List.getElem_of_mem he
  have hn' : n < (storing a repository ms).length := hlength.symm ▸ hn
  exact ⟨_, List.getElem_mem hn', hmade n hn' hn⟩

/-! ## The whole contract -/

/-- **What a call does after the calls `ms`**, by what these were. -/
inductive Answered (a : Analyzer) (repository : Repository) (trace : Trace) (ms : List Method) (m : Method) :
    Except Rejection Entry × MethodTable × Trace → Prop
  /-- A call stored under its key: the answer is the very entry that was made then, and the table stays. -/
  | again {i : Nat} {e : Entry} : i ∈ storing a repository ms → MadeAt a repository trace ms i e → e.key = m.key →
      Answered a repository trace ms m
        (.ok e, (run a repository trace ms).1, (run a repository trace ms).2.withHit m.key)
  /-- No accepted method had its key, and it is accepted: its description is stored, after all others. -/
  | first {d : Description} : (∀ x ∈ ms, x.key = m.key → ¬ a.Accepts repository x) → a.describe repository m = .ok d →
      Answered a repository trace ms m
        (.ok (made m (run a repository trace ms).2 d),
          (run a repository trace ms).1.add (made m (run a repository trace ms).2 d),
          (run a repository trace ms).1.traced m (run a repository trace ms).2)
  /-- No accepted method had its key, and it is rejected: the answer is the rejection, and the table stays. -/
  | never {r : Rejection} : (∀ x ∈ ms, x.key = m.key → ¬ a.Accepts repository x) → a.describe repository m = .error r →
      Answered a repository trace ms m
        (.error r, (run a repository trace ms).1, (run a repository trace ms).1.traced m (run a repository trace ms).2)

theorem answered_describe (a : Analyzer) (repository : Repository) (trace : Trace) (ms : List Method) (m : Method) :
    Answered a repository trace ms m ((run a repository trace ms).1.describe m (run a repository trace ms).2) := by
  show Answered a repository trace ms m
    (answer (run a repository trace ms) m, call (run a repository trace ms) m)
  rcases call_cases (run a repository trace ms) m with
    ⟨e, he, hk, hanswer, hcall⟩ | ⟨d, hnew, hd, hanswer, hcall⟩ | ⟨r, hnew, hr, hanswer, hcall⟩
  · obtain ⟨i, hi, hmade⟩ := exists_madeAt he
    rw [hanswer, hcall]
    exact .again hi hmade hk
  · rw [analyzer_run, repository_run] at hd
    rw [hanswer, hcall]
    exact .first ((forall_key_run_iff _).1 hnew) hd
  · rw [analyzer_run, repository_run] at hr
    rw [hanswer, hcall]
    exact .never ((forall_key_run_iff _).1 hnew) hr

/-- **A table of first accepted methods:** what is true after the calls `ms` on a new table. -/
structure FirstAccepted (a : Analyzer) (repository : Repository) (trace : Trace) (ms : List Method) : Prop where
  /-- The entries are those of the calls that store, in the order of these calls, -/
  entries_made : List.Forall₂ (MadeAt a repository trace ms) (storing a repository ms)
    (run a repository trace ms).1.entries
  /-- no two of them under one key, -/
  keys_distinct : ((run a repository trace ms).1.entries.map Entry.key).Nodup
  /-- each an object of its own. -/
  spans_ascending : ((run a repository trace ms).1.entries.map Entry.span).Pairwise (· < ·)
  /-- Whatever is called later, the entries stay where they are. -/
  entries_kept : ∀ later, (run a repository trace ms).1.entries <+: (run a repository trace (ms ++ later)).1.entries
  /-- The next call is answered by what was called before. -/
  answered : ∀ m, Answered a repository trace ms m
    ((run a repository trace ms).1.describe m (run a repository trace ms).2)
  /-- A look-up finds the entry of the key, -/
  find?_eq_some_iff : ∀ k e, (run a repository trace ms).1.find? k = some e ↔
    e ∈ (run a repository trace ms).1.entries ∧ e.key = k
  /-- which there is when an accepted method had the key. -/
  isSome_find?_iff : ∀ k, ((run a repository trace ms).1.find? k).isSome = true ↔
    ∃ x ∈ ms, x.key = k ∧ a.Accepts repository x
  /-- The entries of a name are some of the entries, in their order, -/
  named_sublist : ∀ n, ((run a repository trace ms).1.named n).Sublist (run a repository trace ms).1.entries
  /-- namely those whose methods have the name. -/
  mem_named_iff : ∀ n e, e ∈ (run a repository trace ms).1.named n ↔
    e ∈ (run a repository trace ms).1.entries ∧ e.description.method.name = n
  /-- There are as many entries as calls that store, -/
  length_eq : (run a repository trace ms).1.length = (storing a repository ms).length
  /-- and none when no method is accepted. -/
  isEmpty_iff : (run a repository trace ms).1.isEmpty = true ↔ ∀ x ∈ ms, ¬ a.Accepts repository x
  /-- Bootstrapping with the methods is calling with them, when no call fails, -/
  bootstrap_of_succeed : Succeed (empty a repository, trace) ms →
    bootstrap a repository ms trace = (.ok (run a repository trace ms).1, (run a repository trace ms).2)
  /-- and calling with them up to the first call that fails otherwise. -/
  bootstrap_of_fail : ¬ Succeed (empty a repository, trace) ms →
    ∃ before m later r, ms = before ++ m :: later ∧ Succeed (empty a repository, trace) before ∧
      answer (run a repository trace before) m = .error r ∧
      bootstrap a repository ms trace = (.error r, (run a repository trace (before ++ [m])).2)

/-- A look-up fails when no entry has the key. -/
theorem isSome_find?_run_iff {k : String} : ((run a repository trace ms).1.find? k).isSome = true ↔
    ∃ x ∈ ms, x.key = k ∧ a.Accepts repository x := by
  rw [← exists_key_run_iff trace, Option.isSome_iff_exists]
  exact exists_congr fun e => (sound_run a repository trace ms).find?_eq_some_iff

/-- Nothing is stored when nothing is accepted. -/
theorem isEmpty_run_iff : (run a repository trace ms).1.isEmpty = true ↔ ∀ x ∈ ms, ¬ a.Accepts repository x := by
  show (run a repository trace ms).1.entries.isEmpty = true ↔ _
  rw [List.isEmpty_iff, List.eq_nil_iff_forall_not_mem]
  constructor
  · intro hempty x hx haccepts
    obtain ⟨e, he, -⟩ := (exists_key_run_iff trace).2 ⟨x, hx, rfl, haccepts⟩
    exact hempty e he
  · intro hnone e he
    obtain ⟨x, hx, -, haccepts⟩ := (exists_key_run_iff trace).1 ⟨e, he, rfl⟩
    exact hnone x hx haccepts

/-- **A table holds the first accepted method of each key.** Whatever the analyzer and the repository are, whatever was
    traced before and whatever is called, the whole contract holds of the table. -/
theorem run_firstAccepted (a : Analyzer) (repository : Repository) (trace : Trace) (ms : List Method) :
    FirstAccepted a repository trace ms where
  entries_made := entries_made a repository trace ms
  keys_distinct := (sound_run a repository trace ms).keys_distinct
  spans_ascending := (sound_run a repository trace ms).spans_ascending
  entries_kept later := by
    rw [run_append]
    exact calls_grow _ later
  answered := answered_describe a repository trace ms
  find?_eq_some_iff _ _ := (sound_run a repository trace ms).find?_eq_some_iff
  isSome_find?_iff _ := isSome_find?_run_iff
  named_sublist _ := List.filter_sublist
  mem_named_iff _ _ := by
    unfold named
    rw [List.mem_filter, decide_eq_true_eq]
  length_eq := (entries_made a repository trace ms).length_eq.symm
  isEmpty_iff := isEmpty_run_iff
  bootstrap_of_succeed := MethodTable.bootstrap_of_succeed
  bootstrap_of_fail hfail := by
    rcases succeed_or_fail (empty a repository, trace) ms with h | ⟨before, m, later, r, rfl, h, hm⟩
    · exact absurd h hfail
    · exact ⟨before, m, later, r, rfl, h, hm, MethodTable.bootstrap_of_fail h hm⟩

end MethodTable

end QueryContract
