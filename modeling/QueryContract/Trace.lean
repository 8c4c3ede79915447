import QueryContract.Description

/-!
# `Trace` — what happened while methods were described

Describing a method is one **span**: it starts, passes milestones, and ends. Spans are numbered from 1. A look-up that
finds a described method is a single event outside of all spans. Events are emitted one by one, in the steps in which
what they tell happens.
-/

namespace QueryContract

/-- How a span ended. -/
inductive Outcome where
  | described (shape : Shape)
  | rejected (rejection : Rejection)
deriving DecidableEq

/-- How a span ends that came to a description or to a rejection. -/
def Outcome.of : Except Rejection Description → Outcome
  | .ok description => .described description.shape
  | .error rejection => .rejected rejection

/-- What was reached within a span. -/
inductive Milestone where
  /-- The roles of the parameters are known. -/
  | classified (parameters : Parameters)
  /-- The shape of the result is known. -/
  | shaped (result : ResultShape)
deriving DecidableEq

/-- An event. -/
inductive Event where
  | start (span : Nat) (method : Method)
  | reach (span : Nat) (milestone : Milestone)
  | finish (span : Nat) (method : Method) (outcome : Outcome)
  /-- The method with this key was described already. -/
  | hit (key : String)
deriving DecidableEq

/-- The events so far and the number of spans so far. -/
structure Trace where
  events : List Event
  spans : Nat
deriving DecidableEq

namespace Trace

/-- The trace before anything happened. -/
def empty : Trace := ⟨[], 0⟩

/-- The number of the next span. -/
def nextSpan (t : Trace) : Nat := t.spans + 1

/-- The trace with one more event. -/
def emit (t : Trace) (e : Event) : Trace := { t with events := t.events ++ [e] }

/-- The trace after the number of the next span was given out. -/
def takeSpan (t : Trace) : Trace := { t with spans := t.nextSpan }

/-- The trace with one more hit. -/
def withHit (t : Trace) (key : String) : Trace := t.emit (.hit key)

@[simp] theorem emit_mk (events : List Event) (spans : Nat) (e : Event) :
    (mk events spans).emit e = ⟨events ++ [e], spans⟩ := rfl

@[simp] theorem takeSpan_eq (t : Trace) : t.takeSpan = ⟨t.events, t.nextSpan⟩ := rfl

end Trace

end QueryContract
