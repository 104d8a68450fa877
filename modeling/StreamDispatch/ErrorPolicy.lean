import StreamDispatch.Failure
import StreamDispatch.Number.Scale
import StreamDispatch.Number.Word
import StreamDispatch.Record

/-!
# Error policies

An error policy turns a failure into a decision. The policies here either stop, or skip
the record, or try it again a bounded number of times and then ask another policy; an
application may bring one of its own.

The waits between attempts grow by a constant factor up to a maximum. They are computed
with floats, in whole milliseconds, and cut to a whole number at the end.

## Main definitions

* `RetryPlan`, `RetryPlan.backoff`: how often to try again, and after how long.
* `ErrorPolicy`, `ErrorPolicy.decide`.
-/

namespace StreamDispatch

/-- How a failing record is tried again. -/
structure RetryPlan where
  /-- How many attempts there are in all. -/
  maxAttempts : Nat
  /-- The wait after the first attempt. -/
  initialInterval : Span
  /-- The factor by which the wait grows, at least 1. -/
  coefficient : Float
  /-- The longest wait. -/
  maximumInterval : Span
  /-- Whether failures to decode are left to the fallback at once. -/
  handlerOnly : Bool

namespace RetryPlan

/-- Up to `maxAttempts` attempts, after 100 ms, then twice as long each time, up to 10 s. -/
def ofAttempts (maxAttempts : Nat) : RetryPlan where
  maxAttempts := maxAttempts
  initialInterval := .ofMillis 100
  coefficient := 2.0
  maximumInterval := .ofMillis 10000
  handlerOnly := false

/-- The plan with another factor; a factor below 1, or none at all, counts as 1. -/
def withCoefficient (plan : RetryPlan) (coefficient : Float) : RetryPlan :=
  { plan with coefficient := maxNumber coefficient 1.0 }

/-- The wait after the failed attempt number `attempt`; the exponent goes up to the greatest
signed number of 32 bits. -/
def backoff (plan : RetryPlan) (attempt : Nat) : Span :=
  let exponent := min (attempt - 1) maxSigned32
  let millis := nearestFloat plan.initialInterval.millis * powFloat plan.coefficient exponent
  .ofMillis (wholePart (minNumber millis (nearestFloat plan.maximumInterval.millis)))

/-- Whether the plan covers a failure of this kind at all. -/
def covers (plan : RetryPlan) (kind : FailureKind) : Bool :=
  !(plan.handlerOnly && kind.isDecoding)

end RetryPlan

/-- Says what to do about a failure. -/
inductive ErrorPolicy
  /-- Stop the worker. -/
  | stop
  /-- Skip the record. -/
  | ignore
  /-- Try again by a plan, and then leave it to another policy. -/
  | retry (plan : RetryPlan) (fallback : ErrorPolicy)
  /-- An application's own policy, which may break down with a message instead. -/
  | custom (decide : RawRecord → RecordFailure → Except String Decision)

instance : Inhabited ErrorPolicy := ⟨.stop⟩

namespace ErrorPolicy

/-- The decision of a policy about a failed record, or the message it broke down with. -/
def decide : ErrorPolicy → RawRecord → RecordFailure → Except String Decision
  | .stop, _, _ => .ok .stop
  | .ignore, _, _ => .ok .proceed
  | .retry plan fallback, record, failure =>
    if plan.covers failure.kind ∧ failure.attempt < plan.maxAttempts then
      .ok (.retry (plan.backoff failure.attempt))
    else fallback.decide record failure
  | .custom f, record, failure => f record failure

end ErrorPolicy

end StreamDispatch
