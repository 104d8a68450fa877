import StreamDispatch.Dict
import StreamDispatch.Failure
import StreamDispatch.Number.Scale
import StreamDispatch.Number.Word

/-!
# Telemetry

Everything worth counting is written down as a `Sample`, in the order in which it happens.
What is exported is computed from the samples: counters that only grow, gauges that go up
and down, and histograms that keep each observation. A series exists from the first
sample that touches it, even if that adds nothing to it.

## Main definitions

* `Sample`: what can happen.
* `Sample.increments`, `Sample.gaugeSteps`, `Sample.observations`: what a sample adds to
  which series.
* `counters`, `gauges`, `histograms`: the series of a list of samples.
-/

namespace StreamDispatch

/-- What became of a record. -/
inductive RecordOutcome
  | processed
  | skipped
  | stopped
  deriving DecidableEq, Repr

/-- The name of an outcome. -/
def RecordOutcome.name : RecordOutcome → String
  | .processed => "processed"
  | .skipped => "skipped"
  | .stopped => "stopped"

/-- Something worth counting. -/
inductive Sample
  /-- A poll returned records. -/
  | pollBatch (registration : String) (size : Nat)
  /-- A record is done with. -/
  | outcome (registration topic : String) (outcome : RecordOutcome)
  /-- An error policy decided. -/
  | decision (registration : String) (decision : Decision)
  /-- Offsets were sent to the broker. -/
  | commit (registration : String) (offsets : Nat) (success : Bool)
  /-- A handler was called, and took so many milliseconds. -/
  | handlerDuration (registration : String) (millis : Float)
  /-- A worker started to run. -/
  | workerStarted (registration : String)
  /-- A worker stopped, in failure or not. -/
  | workerStopped (registration : String) (failed : Bool)

/-- The name of a series with its labels. -/
structure Series where
  name : String
  labels : List (String × String)
  deriving DecidableEq, Repr

namespace Series

/-- The names and values of labels, one after the other. -/
def labelWords : List (String × String) → List String
  | [] => []
  | (k, v) :: rest => k :: v :: labelWords rest

/-- Series are ordered by name, then by their labels in turn. -/
def words (s : Series) : List String := s.name :: labelWords s.labels

theorem labelWords_injective {a b : List (String × String)}
    (h : labelWords a = labelWords b) : a = b := by
  induction a generalizing b with
  | nil => cases b <;> simp_all [labelWords]
  | cons head tail ih =>
    cases b with
    | nil => simp [labelWords] at h
    | cons head' tail' =>
      simp only [labelWords, List.cons.injEq] at h
      rw [ih h.2.2, Prod.ext h.1 h.2.1]

instance : Ord Series := ⟨fun a b => compare a.words b.words⟩

theorem compare_def (a b : Series) : compare a b = compare a.words b.words := rfl

instance : Std.LawfulEqOrd Series where
  compare_self := by
    intro a
    rw [compare_def]
    exact Std.ReflCmp.compare_self
  eq_of_compare := by
    intro a b h
    rw [compare_def] at h
    have hw := Std.LawfulEqCmp.eq_of_compare h
    cases a
    cases b
    simp only [words, List.cons.injEq] at hw
    simp only [mk.injEq]
    exact ⟨hw.1, labelWords_injective hw.2⟩

instance : Std.TransOrd Series where
  eq_swap := by
    intro a b
    rw [compare_def, compare_def]
    exact Std.OrientedCmp.eq_swap
  isLE_trans := by
    intro a b c hab hbc
    rw [compare_def] at hab hbc ⊢
    exact Std.TransCmp.isLE_trans hab hbc

end Series

/-- A series that belongs to a registration; `labels` are its further labels. -/
def registrationSeries (name registration : String) (labels : List (String × String)) :
    Series :=
  ⟨name, ("registration", registration) :: labels⟩

namespace Sample

/-- What a sample adds to counters. -/
def increments : Sample → List (Series × Nat)
  | .pollBatch r _ => [(registrationSeries "consumer_polls_total" r [], 1)]
  | .outcome r topic o =>
    [(registrationSeries "consumer_records_total" r [("topic", topic), ("outcome", o.name)], 1)]
  | .decision r d => [(registrationSeries "consumer_decisions_total" r [("decision", d.name)], 1)]
  | .commit r offsets true =>
    [(registrationSeries "consumer_commits_total" r [("status", "success")], 1),
     (registrationSeries "consumer_committed_offsets_total" r [], offsets)]
  | .commit r _ false =>
    [(registrationSeries "consumer_commits_total" r [("status", "failure")], 1)]
  | .workerStopped r true => [(registrationSeries "consumer_worker_failures_total" r [], 1)]
  | .workerStopped _ false => []
  | .handlerDuration _ _ => []
  | .workerStarted _ => []

/-- What a sample adds to gauges. -/
def gaugeSteps : Sample → List (Series × Int)
  | .workerStarted r => [(registrationSeries "consumer_workers_active" r [], 1)]
  | .workerStopped r _ => [(registrationSeries "consumer_workers_active" r [], -1)]
  | _ => []

/-- What a sample adds to histograms. -/
def observations : Sample → List (Series × Float)
  | .pollBatch r size =>
    [(registrationSeries "consumer_poll_batch_size" r [], nearestFloat size)]
  | .handlerDuration r millis =>
    [(registrationSeries "consumer_handler_duration_ms" r [], millis)]
  | _ => []

end Sample

/-- Adds up what belongs to one series. -/
def sumSeries {α : Type} [Add α] (steps : List (Series × α)) : Dict Series α :=
  steps.foldl
    (fun sums step =>
      match sums.get? step.1 with
      | some sum => sums.insert step.1 (sum + step.2)
      | none => sums.insert step.1 step.2)
    ∅

/-- The counters of a list of samples, each a word of 64 bits. -/
def counters (samples : List Sample) : Dict Series Nat :=
  (sumSeries (samples.flatMap Sample.increments)).map fun _ n => lowWord64 n

/-- The gauges of a list of samples. -/
def gauges (samples : List Sample) : Dict Series Int :=
  sumSeries (samples.flatMap Sample.gaugeSteps)

/-- The histograms of a list of samples: the observations of each, in order. -/
def histograms (samples : List Sample) : Dict Series (List Float) :=
  (samples.flatMap Sample.observations).foldl
    (fun seen step => seen.insert step.1 (seen.getD step.1 [] ++ [step.2]))
    ∅

/-! ### Descriptions -/

/-- The kinds of series. -/
inductive SeriesKind
  | counter
  | gauge
  | histogram
  deriving DecidableEq, Repr

/-- The name of a kind of series. -/
def SeriesKind.name : SeriesKind → String
  | .counter => "counter"
  | .gauge => "gauge"
  | .histogram => "histogram"

/-- What the series of one name are. -/
structure SeriesDescription where
  kind : SeriesKind
  name : String
  unit : String
  text : String
  deriving DecidableEq, Repr

/-- All that is exported. -/
def seriesDescriptions : List SeriesDescription :=
  [⟨.counter, "consumer_polls_total", "count", "Polls that returned records"⟩,
   ⟨.histogram, "consumer_poll_batch_size", "count", "Records returned by one poll"⟩,
   ⟨.counter, "consumer_records_total", "count", "Records resolved, by outcome"⟩,
   ⟨.counter, "consumer_decisions_total", "count", "Error handler decisions"⟩,
   ⟨.counter, "consumer_commits_total", "count", "Offset commit requests"⟩,
   ⟨.counter, "consumer_committed_offsets_total", "count", "Partition offsets committed"⟩,
   ⟨.histogram, "consumer_handler_duration_ms", "milliseconds", "Message handler latency"⟩,
   ⟨.gauge, "consumer_workers_active", "count", "Running workers"⟩,
   ⟨.counter, "consumer_worker_failures_total", "count",
    "Workers that ended in the failed state"⟩]

/-! ### Where series and logs go -/

/-- The forms of log lines. -/
inductive LogFormat
  | json
  | pretty
  | compact
  deriving DecidableEq, Repr

/-- The name of a form of log lines. -/
def LogFormat.name : LogFormat → String
  | .json => "Json"
  | .pretty => "Pretty"
  | .compact => "Compact"

/-- Where series and logs go. -/
structure ObservabilityConfig where
  logFormat : LogFormat
  /-- The address at which series are offered. -/
  metricsAddress : Option String
  /-- Which log lines are written. -/
  logLevel : String
  deriving DecidableEq, Repr

/-- Series are offered on every interface, and logs are written as JSON. -/
def ObservabilityConfig.default : ObservabilityConfig :=
  ⟨.json, some "0.0.0.0:9000", "info,rdkafka=warn"⟩

/-- Installing a sink for logs fails when there is one already. -/
def installLogs (installed : Bool) (_ : ObservabilityConfig) : Except String Unit :=
  if installed then .error "Failed to initialize tracing subscriber" else .ok ()

end StreamDispatch
