import QueryContract.Proofs.Calls
import QueryContract.Proofs.Verdict

/-!
# `Proofs.Spans` — the log of a run

While methods are described, a tracer writes down what happens. Each call leaves its events: a single hit if the key of
the method is stored, and otherwise one span, which says by how far it goes why a method is rejected.

* `Analyzer.Course`      — how a description goes, one case for each of its exits (`course_of_exit`);
* `Analyzer.Records`     — what the events of a span say about the description (`records_of_exit`);
* `MethodTable.Logged`   — logs of calls, one after the other, with the events of each written out;
* `MethodTable.run_logged` — the main statement, for any analyzer, repository and calls.
-/

namespace QueryContract

/-! ## The exits of a description -/

/-- A broken rule between roles and shapes, as opposed to a malformed signature. -/
def Violation.IsRule : Violation → Prop
  | malformed _ => False
  | conflictingParameters .. | missingRequiredParameter .. | illegalParameter .. | unsupportedShape .. => True

namespace Outcome

variable {result : Except Rejection Description}

/-- The end of a span names a kind of result if it came to a description of that kind, -/
theorem of_eq_described_iff {kind : Shape} : of result = .described kind ↔ ∃ d, result = .ok d ∧ d.shape = kind := by
  cases result <;> simp [of]

/-- and a rejection if it came to that. -/
theorem of_eq_rejected_iff {r : Rejection} : of result = .rejected r ↔ result = .error r := by
  cases result <;> simp [of]

end Outcome

/-- What the table of rules reports is a rule. -/
theorem Rules.isRule_of_table {n : Role → Nat} {shape : Shape} {violation : Violation}
    (h : FirstCase (table n shape) (some violation)) : violation.IsRule := by
  obtain ⟨p, hmem, -⟩ := h.exists_mem
  simp only [table, List.mem_cons, List.not_mem_nil, Prod.mk.injEq, Option.some.injEq, reduceCtorEq, false_and,
    or_false] at hmem
  rcases hmem with ⟨rfl, -⟩ | ⟨rfl, -⟩ | ⟨rfl, -⟩ | ⟨rfl, -⟩ | ⟨rfl, -⟩ | ⟨rfl, -⟩ <;> trivial

namespace Analyzer

/-- **How a description goes:** the parameters and the shape as far as they are reached, and what it comes to. -/
inductive Course (a : Analyzer) (repository : Repository) (m : Method) :
    Option Parameters → Option ResultShape → Except Rejection Description → Prop
  /-- A role is played more than once: nothing is reached. -/
  | repeatedRole {role : Role} {positions : List Nat} : 2 ≤ a.headcount repository m role →
      Course a repository m none none (.error ⟨m, .malformed (.duplicateRole role positions)⟩)
  /-- The result type is a wrapper around nothing: only the parameters are reached. -/
  | rawResult {ps : Parameters} : (∀ role, a.headcount repository m role ≤ 1) →
      a.vocabulary.RawWrapper (repository.resultType m) → a.parameters repository m = .ok ps →
      Course a repository m (some ps) none
        (.error ⟨m, .malformed (.missingTypeArgument (repository.resultType m))⟩)
  /-- A rule is broken: everything was reached before. -/
  | brokenRule {ps : Parameters} {resolution : Resolution} {violation : Violation} :
      (∀ role, a.headcount repository m role ≤ 1) → ¬a.vocabulary.RawWrapper (repository.resultType m) →
      a.parameters repository m = .ok ps → a.resolution repository m = .ok resolution → violation.IsRule →
      Course a repository m (some ps) (some resolution.result) (.error ⟨m, violation⟩)
  /-- The method is accepted. -/
  | accepted {ps : Parameters} {resolution : Resolution} :
      (∀ role, a.headcount repository m role ≤ 1) → ¬a.vocabulary.RawWrapper (repository.resultType m) →
      a.parameters repository m = .ok ps → a.resolution repository m = .ok resolution →
      Course a repository m (some ps) (some resolution.result) (.ok ⟨m, repository, a.vocabulary, ps, resolution⟩)

variable {a : Analyzer} {repository : Repository} {m : Method}

/-- A result type that is resolved is no wrapper around nothing. -/
theorem not_rawWrapper_of_resolution {resolution : Resolution} (h : a.resolution repository m = .ok resolution) :
    ¬a.vocabulary.RawWrapper (repository.resultType m) := by
  intro hraw
  have herror : a.resolution repository m = .error (.missingTypeArgument (repository.resultType m)) :=
    Vocabulary.resolve_of_raw hraw
  rw [h] at herror
  cases herror

/-- **Every exit is the end of one of the four courses,** and its events are those of the course written out: the start,
    the parameters and the shape as far as they are reached, and the end. -/
theorem course_of_exit {span : Nat} {out : Except Rejection Description} {log : List Event}
    (h : a.Exit repository m span out log) :
    ∃ ps shape, a.Course repository m ps shape out ∧
      log = [.start span m] ++ ps.toList.map (fun p => .reach span (.classified p)) ++
        shape.toList.map (fun r => .reach span (.shaped r)) ++ [.finish span m (.of out)] := by
  cases h with
  | malformed hps =>
      obtain ⟨role, hfirst, rfl⟩ := Parameters.classify_eq_error_iff.1 hps
      obtain ⟨p, hmem, hp⟩ := hfirst.exists_mem
      obtain ⟨r, -, hr⟩ := List.mem_map.1 hmem
      obtain ⟨rfl, rfl⟩ := Prod.mk.inj hr
      exact ⟨none, none, .repeatedRole hp, rfl⟩
  | @unresolved ps reason hps hres =>
      have honce := (Parameters.classify_eq_ok_iff.1 hps).1
      obtain ⟨hraw, rfl⟩ := Vocabulary.resolve_eq_error_iff.1 hres
      exact ⟨some ps, none, .rawResult honce hraw hps, rfl⟩
  | @violation ps resolution violation hps hres hbroken =>
      obtain ⟨honce, rfl⟩ := Parameters.classify_eq_ok_iff.1 hps
      have hrule : violation.IsRule := Rules.isRule_of_table (firstCase_rules_iff.2 hbroken)
      exact ⟨_, some resolution.result, .brokenRule honce (not_rawWrapper_of_resolution hres) hps hres hrule, rfl⟩
  | @sound ps resolution hps hres hsound =>
      have honce := (Parameters.classify_eq_ok_iff.1 hps).1
      exact ⟨some ps, some resolution.result, .accepted honce (not_rawWrapper_of_resolution hres) hps hres, rfl⟩

/-! ## What a span says -/

/-- **What the events of a span say.** `ps` and `shape` are what was reached, `outcome` is how the span ended, and
    `result` is what the description came to. -/
structure Records (a : Analyzer) (repository : Repository) (m : Method) (result : Except Rejection Description)
    (ps : Option Parameters) (shape : Option ResultShape) (outcome : Outcome) : Prop where
  /-- The parameters are reached if no role is played more than once, -/
  parameters_iff : ps.isSome = true ↔ ∀ role, a.headcount repository m role ≤ 1
  /-- the shape if moreover the result type is no wrapper around nothing, -/
  shape_iff : shape.isSome = true ↔
    (∀ role, a.headcount repository m role ≤ 1) ∧ ¬a.vocabulary.RawWrapper (repository.resultType m)
  /-- and they are the parameters and the shape of the method. -/
  parameters_eq : ∀ p, ps = some p → a.parameters repository m = .ok p
  shape_eq : ∀ r, shape = some r → ∃ resolution, a.resolution repository m = .ok resolution ∧ resolution.result = r
  /-- The end names a kind of result if there is a description of that kind, -/
  described_iff : ∀ kind, outcome = .described kind ↔ ∃ d, result = .ok d ∧ d.shape = kind
  /-- which is the kind that was reached before. -/
  described_shape : ∀ kind, outcome = .described kind → ∃ r, shape = some r ∧ r.shape = kind
  /-- Otherwise the end names the rejection. -/
  rejected_iff : ∀ r, outcome = .rejected r ↔ result = .error r
  /-- Of the rejections, those for a repeated role are the ones before the parameters, -/
  repeated_iff : ∀ r, result = .error r →
    (ps = none ↔ ∃ role positions, r.violation = .malformed (.duplicateRole role positions))
  /-- those for a wrapper around nothing are the ones between the parameters and the shape, -/
  raw_iff : ∀ r, result = .error r →
    (ps ≠ none ∧ shape = none ↔ ∃ wrapper, r.violation = .malformed (.missingTypeArgument wrapper))
  /-- and those for a broken rule are the ones after the shape. -/
  rule_iff : ∀ r, result = .error r → (shape ≠ none ↔ r.violation.IsRule)

namespace Course

variable {ps : Option Parameters} {shape : Option ResultShape} {result : Except Rejection Description} {r : Rejection}

/-- A role that is played more than once is not played once. -/
theorem not_once {role : Role} (h : 2 ≤ a.headcount repository m role) :
    ¬∀ role, a.headcount repository m role ≤ 1 := by
  intro honce
  have := honce role
  omega

theorem parameters_iff (h : a.Course repository m ps shape result) :
    ps.isSome = true ↔ ∀ role, a.headcount repository m role ≤ 1 := by
  cases h with
  | repeatedRole hrepeated => simpa using not_once hrepeated
  | rawResult honce _ _ => simpa using honce
  | brokenRule honce _ _ _ _ => simpa using honce
  | accepted honce _ _ _ => simpa using honce

theorem shape_iff (h : a.Course repository m ps shape result) : shape.isSome = true ↔
    (∀ role, a.headcount repository m role ≤ 1) ∧ ¬a.vocabulary.RawWrapper (repository.resultType m) := by
  cases h with
  | repeatedRole hrepeated => simpa using fun honce => absurd honce (not_once hrepeated)
  | rawResult _ hraw _ => simpa using fun _ => hraw
  | brokenRule honce hinside _ _ _ => simpa using ⟨honce, hinside⟩
  | accepted honce hinside _ _ => simpa using ⟨honce, hinside⟩

theorem parameters_eq {p : Parameters} (h : a.Course repository m (some p) shape result) :
    a.parameters repository m = .ok p := by
  cases h with
  | rawResult _ _ hps => exact hps
  | brokenRule _ _ hps _ _ => exact hps
  | accepted _ _ hps _ => exact hps

theorem shape_eq {r : ResultShape} (h : a.Course repository m ps (some r) result) :
    ∃ resolution, a.resolution repository m = .ok resolution ∧ resolution.result = r := by
  cases h with
  | brokenRule _ _ _ hres _ => exact ⟨_, hres, rfl⟩
  | accepted _ _ _ hres => exact ⟨_, hres, rfl⟩

/-- Before a description the shape is reached. -/
theorem shape_of_ok {d : Description} (h : a.Course repository m ps shape (.ok d)) : shape = some d.result := by
  cases h with
  | accepted _ _ _ _ => rfl

theorem repeated_iff (h : a.Course repository m ps shape (.error r)) :
    ps = none ↔ ∃ role positions, r.violation = .malformed (.duplicateRole role positions) := by
  cases h with
  | repeatedRole _ => simp
  | rawResult _ _ _ => simp
  | brokenRule _ _ _ _ hrule =>
      simp only [reduceCtorEq, false_iff, not_exists]
      rintro role positions rfl
      exact hrule

theorem raw_iff (h : a.Course repository m ps shape (.error r)) :
    ps ≠ none ∧ shape = none ↔ ∃ wrapper, r.violation = .malformed (.missingTypeArgument wrapper) := by
  cases h with
  | repeatedRole _ => simp
  | rawResult _ _ _ => simp
  | brokenRule _ _ _ _ hrule =>
      simp only [reduceCtorEq, and_false, false_iff, not_exists]
      rintro wrapper rfl
      exact hrule

theorem rule_iff (h : a.Course repository m ps shape (.error r)) : shape ≠ none ↔ r.violation.IsRule := by
  cases h with
  | repeatedRole _ => simp [Violation.IsRule]
  | rawResult _ _ _ => simp [Violation.IsRule]
  | brokenRule _ _ _ _ hrule => simpa using hrule

end Course

/-- **The events of a span record the description.** They are the start, the parameters and the shape as far as they are
    reached, and the end. -/
theorem records_of_exit {span : Nat} {out : Except Rejection Description} {log : List Event}
    (h : a.Exit repository m span out log) :
    ∃ ps shape outcome, a.Records repository m out ps shape outcome ∧
      log = [.start span m] ++ ps.toList.map (fun p => .reach span (.classified p)) ++
        shape.toList.map (fun r => .reach span (.shaped r)) ++ [.finish span m outcome] := by
  obtain ⟨ps, shape, hcourse, hlog⟩ := course_of_exit h
  refine ⟨ps, shape, .of out, ?_, hlog⟩
  constructor
  · exact hcourse.parameters_iff
  · exact hcourse.shape_iff
  · rintro p rfl
    exact hcourse.parameters_eq
  · rintro r rfl
    exact hcourse.shape_eq
  · exact fun _ => Outcome.of_eq_described_iff
  · intro kind hkind
    obtain ⟨d, rfl, rfl⟩ := Outcome.of_eq_described_iff.1 hkind
    exact ⟨d.result, hcourse.shape_of_ok, rfl⟩
  · exact fun _ => Outcome.of_eq_rejected_iff
  · rintro r rfl
    exact hcourse.repeated_iff
  · rintro r rfl
    exact hcourse.raw_iff
  · rintro r rfl
    exact hcourse.rule_iff

end Analyzer

/-! ## Starts and ends -/

namespace Event

/-- The number of the span that an event starts. -/
def started? : Event → Option Nat
  | start s _ => some s
  | _ => none

/-- The number of the span that an event finishes. -/
def finished? : Event → Option Nat
  | finish s _ _ => some s
  | _ => none

end Event

/-! ## The log of a run -/

namespace MethodTable

/-- **The logs of calls:** `Logged a repository ms n log` says that `log` is the events of the calls `ms`, one call
    after the other, and that they took `n` spans. -/
inductive Logged (a : Analyzer) (repository : Repository) : List Method → Nat → List Event → Prop
  /-- Without calls nothing is logged. -/
  | nil : Logged a repository [] 0 []
  /-- A call under a stored key is a hit. It takes no span. -/
  | hit {ms : List Method} {n : Nat} {log : List Event} {m : Method} {e : Entry} :
      Logged a repository ms n log →
      e ∈ (run a repository .empty ms).1.entries → e.key = m.key →
      answer (run a repository .empty ms) m = .ok e →
      Logged a repository (ms ++ [m]) n (log ++ [.hit m.key])
  /-- Any other call takes the next span. Its events are the start, the parameters and the shape as far as they are
      reached, and the end, and they record what the call is answered with. -/
  | span {ms : List Method} {n : Nat} {log : List Event} {m : Method} {ps : Option Parameters}
      {shape : Option ResultShape} {outcome : Outcome} :
      Logged a repository ms n log →
      (∀ e ∈ (run a repository .empty ms).1.entries, e.key ≠ m.key) →
      a.Records repository m ((answer (run a repository .empty ms) m).map Entry.description) ps shape outcome →
      Logged a repository (ms ++ [m]) (n + 1)
        (log ++ ([.start (n + 1) m] ++ ps.toList.map (fun p => .reach (n + 1) (.classified p)) ++
          shape.toList.map (fun r => .reach (n + 1) (.shaped r)) ++ [.finish (n + 1) m outcome]))

variable {a : Analyzer} {repository : Repository} {ms : List Method} {m : Method} {n : Nat} {log : List Event}
  {s : MethodTable × Trace}

/-- A call under a stored key is answered with its entry, and traced as a hit. -/
theorem call_of_stored {e : Entry} (he : e ∈ s.1.entries) (hk : e.key = m.key) :
    (∃ e ∈ s.1.entries, e.key = m.key ∧ answer s m = .ok e) ∧ (call s m).2 = s.2.withHit m.key := by
  rcases call_cases s m with ⟨e', he', hk', hanswer, hcall⟩ | ⟨d, hnew, -, -, -⟩ | ⟨r, hnew, -, -, -⟩
  · exact ⟨⟨e', he', hk', hanswer⟩, by rw [hcall]⟩
  · exact absurd hk (hnew e he)
  · exact absurd hk (hnew e he)

/-- A call under a new key is answered with what the analyzer makes of the method, and traced as it was described. -/
theorem call_of_new (hnew : ∀ e ∈ s.1.entries, e.key ≠ m.key) :
    (answer s m).map Entry.description = s.1.analyzer.describe s.1.repository m ∧ (call s m).2 = s.1.traced m s.2 := by
  rcases call_cases s m with ⟨e, he, hk, -, -⟩ | ⟨d, -, hd, hanswer, hcall⟩ | ⟨r, -, hr, hanswer, hcall⟩
  · exact absurd hk (hnew e he)
  · rw [hanswer, hcall, hd]
    exact ⟨rfl, rfl⟩
  · rw [hanswer, hcall, hr]
    exact ⟨rfl, rfl⟩

/-- **One more call logs its events.** -/
theorem logged_snoc (m : Method)
    (h : Logged a repository ms (run a repository .empty ms).2.spans (run a repository .empty ms).2.events) :
    Logged a repository (ms ++ [m]) (run a repository .empty (ms ++ [m])).2.spans
      (run a repository .empty (ms ++ [m])).2.events := by
  rw [run_snoc]
  by_cases hstored : ∃ e ∈ (run a repository .empty ms).1.entries, e.key = m.key
  · obtain ⟨e, he, hk⟩ := hstored
    obtain ⟨⟨e', he', hk', hanswer⟩, htrace⟩ := call_of_stored he hk
    rw [htrace]
    exact .hit h he' hk' hanswer
  · have hnew : ∀ e ∈ (run a repository .empty ms).1.entries, e.key ≠ m.key :=
      fun e he hk => hstored ⟨e, he, hk⟩
    obtain ⟨hanswer, htrace⟩ := call_of_new hnew
    -- a call asks the table for its analyzer and repository, which are those that the run began with
    rw [analyzer_run, repository_run] at hanswer
    rw [htrace, traced, analyzer_run, repository_run]
    obtain ⟨log, hexit⟩ := a.exists_exit repository m (run a repository .empty ms).2.nextSpan
    rw [Analyzer.trace_of_exit hexit]
    rw [← hanswer] at hexit
    obtain ⟨ps, shape, outcome, hrecords, rfl⟩ := Analyzer.records_of_exit hexit
    exact .span h hnew hrecords

/-- Whatever is called is logged. -/
theorem logged_run (a : Analyzer) (repository : Repository) (ms : List Method) :
    Logged a repository ms (run a repository .empty ms).2.spans (run a repository .empty ms).2.events := by
  -- a call meets what all earlier calls left, so the calls are taken from the end
  induction ms using List.reverseRecOn with
  | nil => exact .nil
  | append_singleton ms m ih => exact logged_snoc m ih

section

variable {number? : Event → Option Nat}

/-- Numbers that are read off no milestone are read off no list of them. -/
theorem filterMap_reach {α : Type} (hreach : ∀ s milestone, number? (.reach s milestone) = none) (s : Nat)
    (milestone : α → Milestone) (xs : List α) :
    (xs.map fun x => Event.reach s (milestone x)).filterMap number? = [] := by
  rw [List.filterMap_map, List.filterMap_eq_nil_iff]
  intro x _
  exact hreach s (milestone x)

/-- Numbers that are read off each span once, at its start or at its end, and off nothing else, are those of the spans in
    order. -/
theorem Logged.numbers (hhit : ∀ k, number? (.hit k) = none)
    (hreach : ∀ s milestone, number? (.reach s milestone) = none)
    (hends : ∀ s m outcome, [Event.start s m, .finish s m outcome].filterMap number? = [s])
    (h : Logged a repository ms n log) : log.filterMap number? = List.range' 1 n := by
  induction h with
  | nil => rfl
  | @hit ms n log m e _ _ _ _ ih =>
      have hnone : [Event.hit m.key].filterMap number? = [] := by
        rw [List.filterMap_cons, hhit, List.filterMap_nil]
      rw [List.filterMap_append, ih, hnone, List.append_nil]
  | @span ms n log m ps shape outcome _ _ _ ih =>
      have hps := filterMap_reach hreach (n + 1) .classified ps.toList
      have hshape := filterMap_reach hreach (n + 1) .shaped shape.toList
      have hspan := hends (n + 1) m outcome
      rw [List.filterMap_append, ih, List.filterMap_append, List.filterMap_append, List.filterMap_append, hps, hshape,
        List.append_nil, List.append_nil, ← List.filterMap_append, List.singleton_append, hspan, List.range'_1_concat,
        Nat.add_comm]

end

/-- **The log of a run is well formed.** Whatever the analyzer and the repository are and whatever is called, the log is
    the events of the calls in their order, and spans are started and finished once each, by number. -/
theorem run_logged (a : Analyzer) (repository : Repository) (ms : List Method) :
    let trace := (run a repository .empty ms).2
    Logged a repository ms trace.spans trace.events ∧
      trace.events.filterMap Event.started? = List.range' 1 trace.spans ∧
      trace.events.filterMap Event.finished? = List.range' 1 trace.spans := by
  intro trace
  have h := logged_run a repository ms
  exact ⟨h, h.numbers (fun _ => rfl) (fun _ _ => rfl) (fun _ _ _ => rfl),
    h.numbers (fun _ => rfl) (fun _ _ => rfl) (fun _ _ _ => rfl)⟩

end MethodTable

end QueryContract
