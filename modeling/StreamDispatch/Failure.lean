import StreamDispatch.Span

/-!
# Failures and decisions

When the key or the value of a record cannot be decoded, or its handler fails, that is a
`RecordFailure`. What happens next is a `Decision`: the record is skipped, it is tried
again after a while, or the worker stops in front of it.

## Main definitions

* `RecordFailure`, `RecordFailure.text`.
* `Decision`.
-/

namespace StreamDispatch

/-- A part of a record that is decoded. -/
inductive RecordPart
  | key
  | value
  deriving DecidableEq, Repr

/-- The name of a part. -/
def RecordPart.name : RecordPart → String
  | .key => "key"
  | .value => "value"

/-- What failed. -/
inductive FailureKind
  /-- The handler returned an error or broke down. -/
  | handler
  /-- The key or the value could not be decoded. -/
  | decoding (part : RecordPart)
  deriving DecidableEq, Repr

namespace FailureKind

/-- Whether decoding failed. -/
def isDecoding : FailureKind → Bool
  | .handler => false
  | .decoding _ => true

/-- The part that could not be decoded. -/
def part? : FailureKind → Option RecordPart
  | .handler => none
  | .decoding part => some part

/-- The name of a kind of failure. -/
def name : FailureKind → String
  | .handler => "handler_exception"
  | .decoding _ => "deserialization_failure"

end FailureKind

/-- The failure of one attempt at a record. -/
structure RecordFailure where
  kind : FailureKind
  message : String
  /-- The number of the attempt, from 1 on. -/
  attempt : Nat
  deriving DecidableEq, Repr

/-- The text of a failure. -/
def RecordFailure.text (f : RecordFailure) : String :=
  match f.kind with
  | .handler => s!"handler failed: {f.message}"
  | .decoding part => s!"{part.name} deserialization failed: {f.message}"

/-- What to do about a failure. -/
inductive Decision
  /-- Skip the record; it counts as done. -/
  | proceed
  /-- Stop the worker; the record is not done. -/
  | stop
  /-- Try the record again after a while. -/
  | retry (backoff : Span)
  deriving DecidableEq, Repr

/-- The name of a decision. -/
def Decision.name : Decision → String
  | .proceed => "continue"
  | .stop => "stop"
  | .retry _ => "retry"

end StreamDispatch
