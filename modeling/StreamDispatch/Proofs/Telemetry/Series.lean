import Mathlib.Algebra.BigOperators.Group.List.Basic
import Mathlib.Data.List.Induction
import StreamDispatch.Telemetry

/-!
# What series show

A series is computed from the samples, by adding up whatever they contribute to it. It shows the
sum of these contributions and nothing else (`StreamDispatch.getD_sumSeries`), so that it can be
followed sample by sample.

Two series tell of the lives of workers, the gauge of those that are running and the counter of
those that have failed. Only two kinds of samples contribute to them
(`StreamDispatch.Sample.isLife`), and they show what the others leave out.

## Main statements

* `StreamDispatch.getD_sumSeries`: what a series shows.
* `StreamDispatch.activeWorkers_append`, `StreamDispatch.failuresSampled_append`: the series follow
  the samples.
* `StreamDispatch.activeWorkers_life`, `StreamDispatch.failuresSampled_life`: no other samples
  matter.
-/

namespace StreamDispatch

/-- The sum of the contributions to a series. -/
def contributed {α : Type} [AddMonoid α] (steps : List (Series × α)) (s : Series) : α :=
  ((steps.filter fun step => step.1 = s).map (·.2)).sum

section Contributed

variable {α : Type} [AddMonoid α]

theorem contributed_append (steps steps' : List (Series × α)) (s : Series) :
    contributed (steps ++ steps') s = contributed steps s + contributed steps' s := by
  rw [contributed, List.filter_append, List.map_append, List.sum_append]
  rfl

theorem contributed_singleton (s s' : Series) (a : α) :
    contributed [(s', a)] s = if s' = s then a else 0 := by
  by_cases h : s' = s <;> simp [contributed, h]

/-- One more contribution is added to what its series shows. -/
theorem sumSeries_concat (steps : List (Series × α)) (step : Series × α) :
    sumSeries (steps ++ [step]) =
      (sumSeries steps).insert step.1
        ((((sumSeries steps).get? step.1).map (· + step.2)).getD step.2) := by
  rw [sumSeries, List.foldl_append, List.foldl_cons, List.foldl_nil, ← sumSeries]
  cases (sumSeries steps).get? step.1 <;> rfl

/-- **What a series shows** is what was contributed to it. -/
theorem getD_sumSeries (steps : List (Series × α)) (s : Series) :
    (sumSeries steps).getD s 0 = contributed steps s := by
  induction steps using List.reverseRecOn with
  | nil => rfl
  | append_singleton steps step ih =>
    rw [contributed_append, ← ih, contributed_singleton, sumSeries_concat, Dict.getD, Dict.getD]
    by_cases hs : step.1 = s
    · rw [if_pos hs, ← hs, Dict.get?_insert_self, Option.getD_some]
      cases (sumSeries steps).get? step.1 with
      | none => rw [Option.map_none, Option.getD_none, Option.getD_none, zero_add]
      | some sum => rw [Option.map_some, Option.getD_some, Option.getD_some]
    · rw [if_neg hs, add_zero, Dict.get?_insert_of_ne _ (Ne.symm hs)]

end Contributed

/-! ### The lives of workers -/

/-- Whether a sample tells of the life of a worker. -/
def Sample.isLife : Sample → Bool
  | .workerStarted _ => true
  | .workerStopped _ _ => true
  | _ => false

/-- The gauge of the running workers of a registration. -/
def activeSeries (name : String) : Series := registrationSeries "consumer_workers_active" name []

/-- The counter of the failed workers of a registration. -/
def failureSeries (name : String) : Series :=
  registrationSeries "consumer_worker_failures_total" name []

/-- A series of one kind belongs to one registration. -/
theorem registrationSeries_inj {kind name name' : String} :
    registrationSeries kind name [] = registrationSeries kind name' [] ↔ name = name' := by
  simp [registrationSeries]

/-- What the gauge of the running workers of a registration shows. -/
def activeWorkers (samples : List Sample) (name : String) : Int :=
  (gauges samples).getD (activeSeries name) 0

/-- What the counter of the failed workers of a registration shows. -/
def workerFailures (samples : List Sample) (name : String) : Nat :=
  (counters samples).getD (failureSeries name) 0

/-- How many failed workers of a registration were sampled. -/
def failuresSampled (samples : List Sample) (name : String) : Nat :=
  contributed (samples.flatMap Sample.increments) (failureSeries name)

/-- The counter shows the lower word of what was sampled. -/
theorem workerFailures_eq (samples : List Sample) (name : String) :
    workerFailures samples name = lowWord64 (failuresSampled samples name) := by
  rw [workerFailures, counters, failuresSampled, ← getD_sumSeries, Dict.getD, Dict.get?_map,
    Dict.getD]
  cases (sumSeries (samples.flatMap Sample.increments)).get? (failureSeries name) <;> rfl

theorem activeWorkers_eq (samples : List Sample) (name : String) :
    activeWorkers samples name =
      contributed (samples.flatMap Sample.gaugeSteps) (activeSeries name) :=
  getD_sumSeries _ _

theorem activeWorkers_append (samples more : List Sample) (name : String) :
    activeWorkers (samples ++ more) name =
      activeWorkers samples name + activeWorkers more name := by
  rw [activeWorkers_eq, activeWorkers_eq, activeWorkers_eq, List.flatMap_append,
    contributed_append]

theorem failuresSampled_append (samples more : List Sample) (name : String) :
    failuresSampled (samples ++ more) name =
      failuresSampled samples name + failuresSampled more name := by
  rw [failuresSampled, List.flatMap_append, contributed_append]
  rfl

/-- What one sample contributes to the gauge. -/
theorem activeWorkers_singleton (sample : Sample) (name : String) :
    activeWorkers [sample] name =
      match sample with
      | .workerStarted r => if r = name then 1 else 0
      | .workerStopped r _ => if r = name then -1 else 0
      | _ => 0 := by
  rw [activeWorkers_eq, List.flatMap_singleton, activeSeries]
  cases sample with
  | workerStarted r => simp only [Sample.gaugeSteps, contributed_singleton, registrationSeries_inj]
  | workerStopped r failed =>
    simp only [Sample.gaugeSteps, contributed_singleton, registrationSeries_inj]
  | _ => rfl

/-- What one sample contributes to the counter. -/
theorem failuresSampled_singleton (sample : Sample) (name : String) :
    failuresSampled [sample] name =
      match sample with
      | .workerStopped r true => if r = name then 1 else 0
      | _ => 0 := by
  rw [failuresSampled, List.flatMap_singleton, failureSeries]
  cases sample with
  | workerStopped r failed =>
    cases failed with
    | true => simp only [Sample.increments, contributed_singleton, registrationSeries_inj]
    | false => rfl
  | commit r offsets success =>
    cases success <;> simp [Sample.increments, contributed, registrationSeries]
  | _ => simp [Sample.increments, contributed, registrationSeries]

/-- What the gauge shows depends only on samples of lives. -/
theorem activeWorkers_life (samples : List Sample) (name : String) :
    activeWorkers (samples.filter Sample.isLife) name = activeWorkers samples name := by
  induction samples with
  | nil => rfl
  | cons sample rest ih =>
    rw [← List.singleton_append, List.filter_append, activeWorkers_append, activeWorkers_append, ih]
    congr 1
    cases sample with
    | workerStarted r => rfl
    | workerStopped r failed => rfl
    | _ =>
      rw [activeWorkers_singleton]
      rfl

/-- What the counter shows depends only on samples of lives. -/
theorem failuresSampled_life (samples : List Sample) (name : String) :
    failuresSampled (samples.filter Sample.isLife) name = failuresSampled samples name := by
  induction samples with
  | nil => rfl
  | cons sample rest ih =>
    rw [← List.singleton_append, List.filter_append, failuresSampled_append,
      failuresSampled_append, ih]
    congr 1
    cases sample with
    | workerStarted r => rfl
    | workerStopped r failed => rfl
    | _ =>
      rw [failuresSampled_singleton]
      rfl

end StreamDispatch
