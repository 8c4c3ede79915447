import Mathlib.Control.Monad.Basic
import QueryContract.Source

/-!
# `Proofs.ErrorTypes` — what the error type of a result decides

`Result` counts as its first argument, the type of the value. All its arguments are read before that, so the type of the
error still has to be one that some declared type corresponds to. As long as it is, it decides nothing.

* `Refuses`               — computations that fail for an unsupported type only (`TypeExpr.refuses`);
* `Fallible`              — `Result` with a value type and an error type, under any path;
* `Fallible.declared_eq`  — both types are read, and the first is what is declared;
* `errorType_counts`      — an error type that makes a difference;
* `fallible_declared`     — the main statement: when the error type plays no part, and what it does otherwise.
-/

namespace QueryContract.Source

/-! ## Faults of types -/

/-- The only faults of the computation are unsupported types. -/
def Refuses {α : Type} (x : Except Fault α) : Prop :=
  ∀ fault, x = .error fault → ∃ written, fault = .unsupportedType written

namespace Refuses

variable {α β : Type}

theorem ok (a : α) : Refuses (.ok a : Except Fault α) := nofun

theorem unsupported (t : TypeExpr) : Refuses (unsupported t : Except Fault α) := by
  intro fault h
  exact ⟨t.text, (Except.error.inj h).symm⟩

theorem bind {x : Except Fault α} {f : α → Except Fault β} (hx : Refuses x) (hf : ∀ a, Refuses (f a)) :
    Refuses (x >>= f) := by
  cases x with
  | error fault =>
      intro fault' h
      obtain rfl : fault = fault' := Except.error.inj h
      exact hx fault rfl
  | ok a => exact hf a

theorem declaredPath (whole : TypeExpr) (segments : List Segment) (args : List DeclaredType) :
    Refuses (declaredPath whole segments args) := by
  unfold Source.declaredPath
  split
  · exact unsupported whole
  · split
    · split
      · exact ok _
      · exact unsupported whole
    · exact ok _

end Refuses

mutual

/-- **A type that is not declared is an unsupported one.** -/
theorem TypeExpr.refuses : ∀ t : TypeExpr, Refuses t.declared
  | .path leading segments => by
      rw [TypeExpr.declared]
      exact (lastDeclared_refuses _ segments).bind fun args => .declaredPath _ _ args
  | .member self leading base [] => by
      rw [TypeExpr.declared]
      exact (lastDeclared_refuses _ base).bind fun args => .declaredPath _ _ args
  | .member self leading base (s :: ss) => by
      rw [TypeExpr.declared]
      exact (lastDeclared_refuses _ (s :: ss)).bind fun args => .declaredPath _ _ args
  | .reference _ _ target => by
      rw [TypeExpr.declared]
      exact target.refuses
  | .paren inner => by
      rw [TypeExpr.declared]
      exact inner.refuses
  | .slice element => by
      rw [TypeExpr.declared]
      exact element.refuses.bind fun t => .ok _
  | .array element _ => by
      rw [TypeExpr.declared]
      exact element.refuses.bind fun t => .ok _
  | .tuple [] _ => by
      rw [TypeExpr.declared]
      exact .ok _
  | .tuple (t :: ts) trailing => by
      rw [TypeExpr.declared]
      exact .unsupported _
  | .bounded keyword bounds trailing => by
      rw [TypeExpr.declared]
      exact boundsDeclared_refuses _ bounds
  | .other written bare => by
      rw [TypeExpr.declared]
      exact .unsupported _

theorem lastDeclared_refuses (whole : TypeExpr) : ∀ segments : List Segment, Refuses (lastDeclared whole segments)
  | [] => by
      rw [lastDeclared]
      exact .ok _
  | [s] => by
      rw [lastDeclared]
      exact s.refuses whole
  | _ :: s :: ss => by
      rw [lastDeclared]
      exact lastDeclared_refuses whole (s :: ss)

theorem Segment.refuses (whole : TypeExpr) : ∀ s : Segment, Refuses (s.declared whole)
  | .mk _ arguments => by
      rw [Segment.declared]
      exact arguments.refuses whole

theorem Arguments.refuses (whole : TypeExpr) : ∀ arguments : Arguments, Refuses (arguments.declared whole)
  | .none => by
      rw [Arguments.declared]
      exact .ok _
  | .angle _ args _ => by
      rw [Arguments.declared]
      exact allDeclared_refuses args
  | .parenthesized _ _ => by
      rw [Arguments.declared]
      exact .unsupported whole

theorem allDeclared_refuses : ∀ args : List Argument, Refuses (allDeclared args)
  | [] => by
      rw [allDeclared]
      exact .ok _
  | .type t :: as => by
      rw [allDeclared]
      exact t.refuses.bind fun first => (allDeclared_refuses as).bind fun rest => .ok _
  | .associated _ t :: as => by
      rw [allDeclared]
      exact t.refuses.bind fun first => (allDeclared_refuses as).bind fun rest => .ok _
  | .lifetime _ :: as => by
      rw [allDeclared]
      exact allDeclared_refuses as
  | .other _ :: as => by
      rw [allDeclared]
      exact allDeclared_refuses as

theorem boundsDeclared_refuses (whole : TypeExpr) : ∀ bounds : List Bound, Refuses (boundsDeclared whole bounds)
  | [] => by
      rw [boundsDeclared]
      exact .unsupported whole
  | .trait _ _ _ segments :: _ => by
      rw [boundsDeclared]
      exact (lastDeclared_refuses _ segments).bind fun args => .declaredPath _ _ args
  | .lifetime _ :: bounds => by
      rw [boundsDeclared]
      exact boundsDeclared_refuses whole bounds
  | .capture _ :: bounds => by
      rw [boundsDeclared]
      exact boundsDeclared_refuses whole bounds
  | .constant _ :: bounds => by
      rw [boundsDeclared]
      exact boundsDeclared_refuses whole bounds

end

/-! ## Results that may be errors -/

/-- The last segment of a fallible type: `Result`, with the type of the value and that of the error. -/
def resultSegment (turbofish trailing : Bool) (value error : TypeExpr) : Segment :=
  .mk "Result" (.angle turbofish [.type value, .type error] trailing)

/-- The type is `Result` with a value type and an error type, under any path. -/
inductive Fallible (value error : TypeExpr) : TypeExpr → Prop
  | path (leading turbofish trailing : Bool) (front : List Segment) :
      Fallible value error (.path leading (front ++ [resultSegment turbofish trailing value error]))
  | member (self : TypeExpr) (leading turbofish trailing : Bool) (base front : List Segment) :
      Fallible value error (.member self leading base (front ++ [resultSegment turbofish trailing value error]))

/-- Only the last segment of a path is asked for arguments. -/
theorem lastDeclared_concat (whole : TypeExpr) (front : List Segment) (s : Segment) :
    lastDeclared whole (front ++ [s]) = s.declared whole := by
  induction front with
  | nil => rw [List.nil_append, lastDeclared]
  | cons x front ih =>
      cases front with
      | nil =>
          show lastDeclared whole (x :: s :: []) = _
          rw [lastDeclared, lastDeclared]
      | cons y ys =>
          show lastDeclared whole (x :: y :: (ys ++ [s])) = _
          rw [lastDeclared]
          exact ih

section

variable {value error t : TypeExpr}

theorem declared_resultSegment (whole : TypeExpr) (turbofish trailing : Bool) :
    (resultSegment turbofish trailing value error).declared whole =
      (do pure [← value.declared, ← error.declared]) := by
  rw [resultSegment, Segment.declared, Arguments.declared, allDeclared, allDeclared, allDeclared]
  cases value.declared with
  | error fault => rfl
  | ok d => cases error.declared <;> rfl

/-- A path that ends in `Result` declares the first of its arguments. -/
theorem declaredPath_resultSegment (whole : TypeExpr) (turbofish trailing : Bool) (front : List Segment)
    (d e : DeclaredType) :
    declaredPath whole (front ++ [resultSegment turbofish trailing value error]) [d, e] = .ok d := by
  have htransparent : transparent.contains "Result" = true := by decide
  rw [declaredPath, List.getLast?_concat]
  simp only [resultSegment, Segment.name, htransparent, if_true]

/-- Such a path has both types read. -/
theorem declared_front (whole : TypeExpr) (turbofish trailing : Bool) (base front : List Segment) :
    (lastDeclared whole (front ++ [resultSegment turbofish trailing value error]) >>=
      declaredPath whole (base ++ (front ++ [resultSegment turbofish trailing value error]))) =
    value.declared <* error.declared := by
  rw [lastDeclared_concat, declared_resultSegment, ← List.append_assoc]
  cases value.declared with
  | error fault => rfl
  | ok d =>
      cases error.declared with
      | error fault => rfl
      | ok e => exact declaredPath_resultSegment whole turbofish trailing _ d e

/-- **Both types are read, and that of the value is declared.** -/
theorem Fallible.declared_eq (h : Fallible value error t) : t.declared = value.declared <* error.declared := by
  cases h with
  | path leading turbofish trailing front =>
      rw [TypeExpr.declared]
      exact declared_front _ turbofish trailing [] front
  | member self leading turbofish trailing base front =>
      cases hrest : front ++ [resultSegment turbofish trailing value error] with
      | nil => exact absurd hrest (by simp)
      | cons s ss =>
          rw [TypeExpr.declared, ← hrest]
          exact declared_front _ turbofish trailing base front

/-- The error type decides nothing: it is supported, or the value type is not supported either. -/
def ErrorIgnored (value error : TypeExpr) : Prop :=
  (∃ fault, value.declared = .error fault) ∨ ∃ e, error.declared = .ok e

/-- Otherwise the value is declared and the error is not. -/
theorem exists_of_not_errorIgnored (h : ¬ErrorIgnored value error) :
    ∃ d fault, value.declared = .ok d ∧ error.declared = .error fault := by
  cases hvalue : value.declared with
  | error fault => exact absurd (.inl ⟨fault, hvalue⟩) h
  | ok d =>
      cases herror : error.declared with
      | error fault => exact ⟨d, fault, rfl, rfl⟩
      | ok e => exact absurd (.inr ⟨e, herror⟩) h

theorem Fallible.declared_of_errorIgnored (h : Fallible value error t) (hignored : ErrorIgnored value error) :
    t.declared = value.declared := by
  rw [h.declared_eq]
  rcases hignored with ⟨fault, hvalue⟩ | ⟨e, herror⟩
  · rw [hvalue]
    rfl
  · rw [herror]
    cases value.declared <;> rfl

theorem Fallible.declared_of_refused (h : Fallible value error t) {d : DeclaredType} {fault : Fault}
    (hvalue : value.declared = .ok d) (herror : error.declared = .error fault) : t.declared = .error fault := by
  rw [h.declared_eq, hvalue, herror]
  rfl

/-- What a method declares depends on what its result type declares, and not on how that is written. -/
theorem Signature.declared_congr_result (m : Signature) (h : t.declared = value.declared) :
    Signature.declared { m with result := some t } = Signature.declared { m with result := some value } := by
  unfold Signature.declared Signature.declaredResult
  simp only [h]

/-- A method whose result type is refused is refused. -/
theorem Signature.declared_of_refused (m : Signature) {fault : Fault} (h : t.declared = .error fault) :
    ∃ fault', Signature.declared { m with result := some t } = .error fault' := by
  have hresult : Signature.declaredResult { m with result := some t } = .error fault := by
    unfold Signature.declaredResult
    simp only [h]
    rfl
  rw [Signature.declared, hresult]
  cases m.parameters.mapM (ParameterExpr.declared m.name) with
  | error fault' => exact ⟨fault', rfl⟩
  | ok parameters => exact ⟨fault, rfl⟩

end

/-! ## What the error type decides -/

/-- A user, -/
def user : TypeExpr := .path false [.mk "User" .none]

/-- and a pair, which no declared type corresponds to. -/
def pair : TypeExpr := .tuple [.path false [.mk "A" .none], .path false [.mk "B" .none]] false

/-- **Error types count:** with a pair for its error, a result does not declare its value. -/
theorem errorType_counts : ¬∀ value error t : TypeExpr, Fallible value error t → t.declared = value.declared := by
  intro h
  have hfallible := h user pair _ (.path false false false [])
  have huser : user.declared = .ok (.named "User") := by decide +kernel
  have hrefused : (TypeExpr.path false ([] ++ [resultSegment false false user pair])).declared =
      .error (.unsupportedType "(A , B)") := by decide +kernel
  rw [huser, hrefused] at hfallible
  cases hfallible

/-- **What the error type decides.** The declared type is that of the value exactly if the error type is supported or
    the value type is not; in all other cases the type is refused for what is unsupported in the error type. A method
    with such a result declares what it does with the value alone, or is refused, accordingly. -/
theorem fallible_declared {value error t : TypeExpr} (h : Fallible value error t) :
    (t.declared = value.declared ↔ ErrorIgnored value error) ∧
    (∀ d fault, value.declared = .ok d → error.declared = .error fault → t.declared = .error fault) ∧
    (∀ fault, t.declared = .error fault → ∃ written, fault = .unsupportedType written) ∧
    (∀ m : Signature, ErrorIgnored value error →
      Signature.declared { m with result := some t } = Signature.declared { m with result := some value }) ∧
    ∀ m : Signature, ¬ErrorIgnored value error →
      ∃ fault, Signature.declared { m with result := some t } = .error fault := by
  refine ⟨⟨fun heq => ?_, h.declared_of_errorIgnored⟩, fun d fault => h.declared_of_refused, t.refuses,
    fun m hignored => ?_, fun m hcounts => ?_⟩
  · by_contra hcounts
    obtain ⟨d, fault, hvalue, herror⟩ := exists_of_not_errorIgnored hcounts
    rw [h.declared_of_refused hvalue herror, hvalue] at heq
    cases heq
  · exact m.declared_congr_result (h.declared_of_errorIgnored hignored)
  · obtain ⟨d, fault, hvalue, herror⟩ := exists_of_not_errorIgnored hcounts
    exact m.declared_of_refused (h.declared_of_refused hvalue herror)

/-- A result of the standard library with a pair for its error is refused for the pair. -/
theorem fallible_declared_pair :
    Fallible user pair (.path true [.mk "std" .none, .mk "result" .none, resultSegment false false user pair]) ∧
    user.declared = .ok (.named "User") ∧ pair.declared = .error (.unsupportedType "(A , B)") ∧
    (TypeExpr.path true [.mk "std" .none, .mk "result" .none, resultSegment false false user pair]).declared =
      .error (.unsupportedType "(A , B)") := by
  have hfallible : Fallible user pair
      (.path true [.mk "std" .none, .mk "result" .none, resultSegment false false user pair]) :=
    .path true false false [.mk "std" .none, .mk "result" .none]
  have huser : user.declared = .ok (.named "User") := by decide +kernel
  have hpair : pair.declared = .error (.unsupportedType "(A , B)") := by decide +kernel
  exact ⟨hfallible, huser, hpair, (fallible_declared hfallible).2.1 _ _ huser hpair⟩

/-- The same in a text. -/
example : DeclaredType.ofSource "Result<User, (A, B)>" = .error (.unsupportedType "(A , B)") := by decide +kernel

end QueryContract.Source
