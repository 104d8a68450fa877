import StreamDispatch.Number.Word
import StreamDispatch.Telemetry.Latency

/-!
# What a worker counts

Each worker counts what it does, for status reports. The counters only grow; a report shows
them as words of 64 bits.

## Main definitions

* `WorkerMetrics` and one function for each thing that is counted.
* `WorkerMetrics.snapshot`: the counters as a report shows them.
-/

namespace StreamDispatch

/-- The counters of a worker. -/
structure WorkerMetrics where
  /-- Polls that returned records. -/
  batches : Nat
  /-- Records that polls returned. -/
  received : Nat
  /-- Records that the handler accepted. -/
  processed : Nat
  /-- Records that were skipped after a failure. -/
  skipped : Nat
  /-- Failed attempts. -/
  failures : Nat
  /-- Decisions to try again. -/
  retries : Nat
  /-- Successful commits. -/
  commits : Nat
  /-- How long the handler took, in milliseconds. -/
  latency : RunningStats
  deriving Inhabited

namespace WorkerMetrics

/-- Nothing counted. -/
def empty : WorkerMetrics := ⟨0, 0, 0, 0, 0, 0, 0, .empty⟩

/-- A poll returned records. -/
def batch (m : WorkerMetrics) (records : Nat) : WorkerMetrics :=
  { m with batches := m.batches + 1, received := m.received + records }

/-- The handler accepted a record. -/
def recordProcessed (m : WorkerMetrics) : WorkerMetrics :=
  { m with processed := m.processed + 1 }

/-- A record was skipped. -/
def recordSkipped (m : WorkerMetrics) : WorkerMetrics := { m with skipped := m.skipped + 1 }

/-- An attempt failed. -/
def attemptFailed (m : WorkerMetrics) : WorkerMetrics := { m with failures := m.failures + 1 }

/-- A record is to be tried again. -/
def retryDecided (m : WorkerMetrics) : WorkerMetrics := { m with retries := m.retries + 1 }

/-- Offsets were committed. -/
def committed (m : WorkerMetrics) : WorkerMetrics := { m with commits := m.commits + 1 }

/-- The handler took so many milliseconds. -/
def observe (m : WorkerMetrics) (millis : Float) : WorkerMetrics :=
  { m with latency := m.latency.push millis }

/-- The counters as a report shows them. -/
def snapshot (m : WorkerMetrics) : WorkerMetrics where
  batches := lowWord64 m.batches
  received := lowWord64 m.received
  processed := lowWord64 m.processed
  skipped := lowWord64 m.skipped
  failures := lowWord64 m.failures
  retries := lowWord64 m.retries
  commits := lowWord64 m.commits
  latency := m.latency

end WorkerMetrics

end StreamDispatch
