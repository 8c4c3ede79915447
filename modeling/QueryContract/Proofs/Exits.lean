import QueryContract.Analyzer

/-!
# `Proofs.Exits` — where a description can end

The steps of a description have four exits: the parameters cannot be classified, the result type cannot be resolved, a
rule is broken, or nothing is wrong. Each exit comes to a result and leaves the events that were emitted on the way, in
the order of the steps.

* `build_of_malformed`, `build_of_unresolved`, `build_of_violation`, `build_of_sound` — one step lemma for each exit;
* `Analyzer.Exit`    — the exits, each with its result and the events of its span;
* `trace_of_exit`    — an exit leaves its events behind those that were there before;
* `describe_of_exit` — what a description comes to there does not depend on the span;
* `exists_exit`      — every description takes one of the exits.
-/

namespace QueryContract

namespace Analyzer

variable {a : Analyzer} {repository : Repository} {m : Method} {ps : Parameters} {resolution : Resolution}

/-! ## One lemma for each exit -/

section

variable (span : Nat) (t : Trace)

/-- The parameters cannot be classified: nothing is emitted. -/
theorem build_of_malformed {reason : Malformed} (h : a.parameters repository m = .error reason) :
    a.build repository m span t = (.error ⟨m, .malformed reason⟩, t) := by
  unfold build
  rw [h]

/-- The result type cannot be resolved: the parameters are emitted. -/
theorem build_of_unresolved {reason : Malformed} (hps : a.parameters repository m = .ok ps)
    (h : a.resolution repository m = .error reason) :
    a.build repository m span t = (.error ⟨m, .malformed reason⟩, t.emit (.reach span (.classified ps))) := by
  unfold build
  rw [hps, h]

/-- A rule is broken: the parameters are emitted, and then the shape. -/
theorem build_of_violation {violation : Violation} (hps : a.parameters repository m = .ok ps)
    (hres : a.resolution repository m = .ok resolution)
    (h : Rules.violation? ps resolution.shape = some violation) :
    a.build repository m span t = (.error ⟨m, violation⟩,
      (t.emit (.reach span (.classified ps))).emit (.reach span (.shaped resolution.result))) := by
  unfold build
  rw [hps, hres]
  simp only [h]

/-- Nothing is wrong: the parameters are emitted, and then the shape. -/
theorem build_of_sound (hps : a.parameters repository m = .ok ps)
    (hres : a.resolution repository m = .ok resolution) (h : Rules.violation? ps resolution.shape = none) :
    a.build repository m span t = (.ok ⟨m, repository, a.vocabulary, ps, resolution⟩,
      (t.emit (.reach span (.classified ps))).emit (.reach span (.shaped resolution.result))) := by
  unfold build
  rw [hps, hres]
  simp only [h]

end

/-- A span starts before the steps and is finished after them. -/
theorem trace_of_build {t after : Trace} {out : Except Rejection Description}
    (h : a.build repository m t.nextSpan (t.takeSpan.emit (.start t.nextSpan m)) = (out, after)) :
    a.trace repository m t = (out, after.emit (.finish t.nextSpan m (.of out))) := by
  unfold trace
  simp only [h]

/-! ## The exits -/

/-- **The exits of a description** in the span of the given number: what it comes to, and the events of the span. -/
inductive Exit (a : Analyzer) (repository : Repository) (m : Method) (span : Nat) :
    Except Rejection Description → List Event → Prop
  /-- The parameters cannot be classified. -/
  | malformed {reason : Malformed} :
      a.parameters repository m = .error reason →
      Exit a repository m span (.error ⟨m, .malformed reason⟩)
        [.start span m, .finish span m (.rejected ⟨m, .malformed reason⟩)]
  /-- The result type cannot be resolved. -/
  | unresolved {ps : Parameters} {reason : Malformed} :
      a.parameters repository m = .ok ps → a.resolution repository m = .error reason →
      Exit a repository m span (.error ⟨m, .malformed reason⟩)
        [.start span m, .reach span (.classified ps), .finish span m (.rejected ⟨m, .malformed reason⟩)]
  /-- A rule is broken. -/
  | violation {ps : Parameters} {resolution : Resolution} {violation : Violation} :
      a.parameters repository m = .ok ps → a.resolution repository m = .ok resolution →
      Rules.violation? ps resolution.shape = some violation →
      Exit a repository m span (.error ⟨m, violation⟩)
        [.start span m, .reach span (.classified ps), .reach span (.shaped resolution.result),
          .finish span m (.rejected ⟨m, violation⟩)]
  /-- Nothing is wrong. -/
  | sound {ps : Parameters} {resolution : Resolution} :
      a.parameters repository m = .ok ps → a.resolution repository m = .ok resolution →
      Rules.violation? ps resolution.shape = none →
      Exit a repository m span (.ok ⟨m, repository, a.vocabulary, ps, resolution⟩)
        [.start span m, .reach span (.classified ps), .reach span (.shaped resolution.result),
          .finish span m (.described resolution.shape)]

variable {t : Trace} {span : Nat} {out : Except Rejection Description} {log : List Event}

/-- **An exit leaves its events** behind those that were there before. -/
theorem trace_of_exit (h : a.Exit repository m t.nextSpan out log) :
    a.trace repository m t = (out, ⟨t.events ++ log, t.nextSpan⟩) := by
  cases h with
  | malformed hps =>
      rw [trace_of_build (build_of_malformed _ _ hps)]
      simp [Outcome.of]
  | unresolved hps hres =>
      rw [trace_of_build (build_of_unresolved _ _ hps hres)]
      simp [Outcome.of]
  | violation hps hres hbroken =>
      rw [trace_of_build (build_of_violation _ _ hps hres hbroken)]
      simp [Outcome.of]
  | sound hps hres hsound =>
      rw [trace_of_build (build_of_sound _ _ hps hres hsound)]
      simp [Outcome.of, Description.shape]

/-- **A description comes to the result of the exit that can be taken,** in whatever span. -/
theorem describe_of_exit (h : a.Exit repository m span out log) : a.describe repository m = out := by
  -- the exit can be taken in the first span too, which is that of a description on its own
  have hfirst : ∃ log, a.Exit repository m Trace.empty.nextSpan out log := by
    cases h with
    | malformed hps => exact ⟨_, .malformed hps⟩
    | unresolved hps hres => exact ⟨_, .unresolved hps hres⟩
    | violation hps hres hbroken => exact ⟨_, .violation hps hres hbroken⟩
    | sound hps hres hsound => exact ⟨_, .sound hps hres hsound⟩
  obtain ⟨log, hfirst⟩ := hfirst
  exact congrArg Prod.fst (trace_of_exit hfirst)

/-- **Every description takes an exit.** -/
theorem exists_exit (a : Analyzer) (repository : Repository) (m : Method) (span : Nat) :
    ∃ log, a.Exit repository m span (a.describe repository m) log := by
  suffices h : ∃ out log, a.Exit repository m span out log by
    obtain ⟨out, log, hexit⟩ := h
    rw [describe_of_exit hexit]
    exact ⟨log, hexit⟩
  cases hps : a.parameters repository m with
  | error reason => exact ⟨_, _, .malformed hps⟩
  | ok ps =>
      cases hres : a.resolution repository m with
      | error reason => exact ⟨_, _, .unresolved hps hres⟩
      | ok resolution =>
          cases hverdict : Rules.violation? ps resolution.shape with
          | some violation => exact ⟨_, _, .violation hps hres hverdict⟩
          | none => exact ⟨_, _, .sound hps hres hverdict⟩

/-- What a description comes to does not depend on what was traced before, and each takes one span. -/
theorem trace_eq (a : Analyzer) (repository : Repository) (m : Method) (t : Trace) :
    (a.trace repository m t).1 = a.describe repository m ∧ (a.trace repository m t).2.spans = t.nextSpan := by
  obtain ⟨log, hexit⟩ := a.exists_exit repository m t.nextSpan
  rw [trace_of_exit hexit]
  exact ⟨rfl, rfl⟩

/-! ## What a description comes to -/

theorem describe_of_malformed {reason : Malformed} (h : a.parameters repository m = .error reason) :
    a.describe repository m = .error ⟨m, .malformed reason⟩ :=
  describe_of_exit (show a.Exit repository m 1 _ _ from .malformed h)

theorem describe_of_unresolved {reason : Malformed} (hps : a.parameters repository m = .ok ps)
    (h : a.resolution repository m = .error reason) :
    a.describe repository m = .error ⟨m, .malformed reason⟩ :=
  describe_of_exit (show a.Exit repository m 1 _ _ from .unresolved hps h)

theorem describe_of_violation {violation : Violation} (hps : a.parameters repository m = .ok ps)
    (hres : a.resolution repository m = .ok resolution)
    (h : Rules.violation? ps resolution.shape = some violation) :
    a.describe repository m = .error ⟨m, violation⟩ :=
  describe_of_exit (show a.Exit repository m 1 _ _ from .violation hps hres h)

theorem describe_of_sound (hps : a.parameters repository m = .ok ps)
    (hres : a.resolution repository m = .ok resolution) (h : Rules.violation? ps resolution.shape = none) :
    a.describe repository m = .ok ⟨m, repository, a.vocabulary, ps, resolution⟩ :=
  describe_of_exit (show a.Exit repository m 1 _ _ from .sound hps hres h)

/-- A description is one of the method that was described. -/
theorem method_of_describe {d : Description} (h : a.describe repository m = .ok d) : d.method = m := by
  obtain ⟨log, hexit⟩ := a.exists_exit repository m 1
  rw [h] at hexit
  cases hexit with
  | sound _ _ _ => rfl

/-- A rejection names the method that was described. -/
theorem method_of_reject {r : Rejection} (h : a.describe repository m = .error r) : r.method = m := by
  obtain ⟨log, hexit⟩ := a.exists_exit repository m 1
  rw [h] at hexit
  cases hexit with
  | malformed _ => rfl
  | unresolved _ _ => rfl
  | violation _ _ _ => rfl

end Analyzer

end QueryContract
