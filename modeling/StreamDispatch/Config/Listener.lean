import StreamDispatch.Config.Rule
import StreamDispatch.Span

/-!
# Listener configuration

How a registration listens: how long a poll waits, how many workers there are, how many
records a poll returns at most, how long a worker may take to finish when it is asked to
stop, and which headers its handler gets to see. Times are whole milliseconds.

## Main definitions

* `ListenerConfig`, `ListenerConfig.violations`.
-/

namespace StreamDispatch

/-- How a registration listens. -/
structure ListenerConfig where
  /-- The longest wait of one poll. -/
  pollTimeoutMs : Nat
  /-- The number of workers. -/
  maxInstances : Nat
  /-- The greatest number of records that a poll returns. -/
  maxPollRecords : Nat
  /-- How long workers may take to finish. -/
  shutdownTimeoutMs : Nat
  /-- The headers that become part of a handler's context. -/
  metadataFields : List String
  deriving DecidableEq, Repr, Inhabited

namespace ListenerConfig

/-- The configuration of a listener about which nothing is said. -/
def default : ListenerConfig := ⟨100, 1, 500, 30000, []⟩

/-- A listener with the given wait and number of workers. -/
def ofTimeout (pollTimeout : Span) (maxInstances : Nat) : ListenerConfig :=
  { default with pollTimeoutMs := pollTimeout.millis64, maxInstances := maxInstances }

/-- The listener with another time to finish. -/
def withShutdownTimeout (c : ListenerConfig) (timeout : Span) : ListenerConfig :=
  { c with shutdownTimeoutMs := timeout.millis64 }

/-- The longest wait of one poll. -/
def pollTimeout (c : ListenerConfig) : Span := .ofMillis c.pollTimeoutMs

/-- How long workers may take to finish. -/
def shutdownTimeout (c : ListenerConfig) : Span := .ofMillis c.shutdownTimeoutMs

/-- The rules that a listener breaks. -/
def violations (c : ListenerConfig) : List Violation :=
  atLeastOne "max_instances" c.maxInstances
    ++ atLeastOne "max_poll_records" c.maxPollRecords
    ++ atLeastOne "poll_timeout_ms" c.pollTimeoutMs

/-- A listener breaks no rule if it has a worker, takes records, and waits for them. -/
theorem violations_eq_nil_iff {c : ListenerConfig} :
    c.violations = [] ↔ 1 ≤ c.maxInstances ∧ 1 ≤ c.maxPollRecords ∧ 1 ≤ c.pollTimeoutMs := by
  simp only [violations, List.append_eq_nil_iff, atLeastOne_eq_nil_iff, and_assoc]

end ListenerConfig

end StreamDispatch
