import Mathlib.Algebra.BigOperators.Group.List.Basic
import StreamDispatch.Proofs.System.Event
import StreamDispatch.Proofs.Worker.Lives

/-!
# The accounts of workers

Of each registration it is exported how many of its workers are running, and how many have
failed. The workers of a name are all that were ever started under it, by however many
registrations (`StreamDispatch.System.workersNamed`), and the samples are to agree with them
after each event: the gauge with the workers that are underway, and the counter with those that
are reported as failed (`StreamDispatch.System.Balanced`).

The counter does. The gauge does as long as no worker is cut off before it has begun: such a
worker is sampled at its end without having been sampled before, and from then on the gauge
shows one worker too few (`StreamDispatch.History.cut_at_once`). How often that has happened is
counted along the history (`StreamDispatch.History.earlyCuts`), and the gauge is wrong by
exactly so much.

## Main statements

* `StreamDispatch.System.Balanced.apply`: one more event keeps the accounts.
* `StreamDispatch.History.workers_accounted`: what the gauge and the counter show, throughout
  every history.
-/

namespace StreamDispatch

/-- A worker that is left alone is reported as failed if it was before. -/
theorem Worker.Kept.hasFailed {w w' : Worker} (h : w.Kept w') : w'.hasFailed = w.hasFailed := by
  cases hphase : w.phase.isTerminal with
  | true => rw [Worker.hasFailed, h.final hphase, Worker.hasFailed]
  | false =>
    rw [hasFailed_of_not_terminal (h.phase.trans hphase), hasFailed_of_not_terminal hphase]

/-! ### The series through one event -/

namespace Turn

variable {t t' : Turn} {ev : WorkerEvent}

theorem activeWorkers_of_life {told : List Sample} (h : t'.life = t.life ++ told) (name : String) :
    activeWorkers t'.samples name = activeWorkers t.samples name + activeWorkers told name := by
  rw [← activeWorkers_life t'.samples, ← activeWorkers_life t.samples, ← activeWorkers_append]
  exact congrArg (activeWorkers · name) h

theorem failuresSampled_of_life {told : List Sample} (h : t'.life = t.life ++ told)
    (name : String) :
    failuresSampled t'.samples name = failuresSampled t.samples name + failuresSampled told name := by
  rw [← failuresSampled_life t'.samples, ← failuresSampled_life t.samples,
    ← failuresSampled_append]
  exact congrArg (failuresSampled · name) h

/-- **The gauge follows the worker** through an event, but for an end without a beginning. -/
theorem Tells.gauge (h : Tells ev t t') (name : String) :
    activeWorkers t'.samples name = activeWorkers t.samples name +
      if t.registration = name then
        (t'.worker.isUnderway.toNat : Int) - t.worker.isUnderway.toNat -
          (t.worker.isCutEarlyBy ev).toNat
      else 0 := by
  cases h with
  | nothing hlife hunderway _ hlate =>
    have hnone : activeWorkers t'.samples name = activeWorkers t.samples name := by
      rw [← activeWorkers_life, ← activeWorkers_life t.samples]
      exact congrArg (activeWorkers · name) hlife
    rw [hnone, hunderway, hlate]
    simp
  | begins hlife hbefore hunderway _ hlate =>
    rw [activeWorkers_of_life hlife, activeWorkers_singleton, hbefore, hunderway, hlate]
    rfl
  | ends hlife hbefore hover _ hlate =>
    rw [activeWorkers_of_life hlife, activeWorkers_singleton, hbefore, hover, hlate]
    rfl
  | cutEarly hlife hbefore hunderway _ hearly =>
    rw [activeWorkers_of_life hlife, activeWorkers_singleton, hbefore, hunderway, hearly]
    rfl

/-- **The counter follows the worker** through an event. -/
theorem Tells.counter (h : Tells ev t t') (name : String) :
    failuresSampled t'.samples name +
        (if t.registration = name then t.worker.hasFailed.toNat else 0) =
      failuresSampled t.samples name +
        if t.registration = name then t'.worker.hasFailed.toNat else 0 := by
  cases h with
  | nothing hlife _ hfailed _ =>
    have hnone : failuresSampled t'.samples name = failuresSampled t.samples name := by
      rw [← failuresSampled_life, ← failuresSampled_life t.samples]
      exact congrArg (failuresSampled · name) hlife
    rw [hnone, hfailed]
  | begins hlife _ _ hfailed _ =>
    rw [failuresSampled_of_life hlife, failuresSampled_singleton, hfailed]
    rfl
  | ends hlife _ _ hunfailed _ =>
    rw [failuresSampled_of_life hlife, failuresSampled_singleton, hunfailed]
    cases t'.worker.hasFailed <;> simp
  | cutEarly hlife _ _ hfailed _ =>
    rw [failuresSampled_of_life hlife, failuresSampled_singleton, hfailed]
    rfl

end Turn

namespace System

variable {D H : Type} {sys sys' : System}

/-! ### Counting workers -/

/-- The workers that were ever started for registrations of a name. -/
def workersNamed (sys : System) (name : String) : List Worker :=
  sys.workers.filter (·.plan.registration = name)

/-- A turn changes what is counted by the worker whose turn it is. -/
theorem countP_turn {place : Nat} {w : Worker} (hw : sys.workers[place]? = some w)
    {step : Turn → Turn}
    (hplan : (step ⟨w, sys.broker, sys.samples⟩).worker.plan = w.plan) (p : Worker → Bool)
    (name : String) :
    (((sys.turn place step).workersNamed name).countP p : Int) =
      (sys.workersNamed name).countP p +
        if w.plan.registration = name then
          ((p (step ⟨w, sys.broker, sys.samples⟩).worker).toNat : Int) - (p w).toNat
        else 0 := by
  obtain ⟨hplace, hget⟩ := List.getElem?_eq_some_iff.mp hw
  rw [workersNamed, workersNamed, List.countP_filter, List.countP_filter, turn_eq hw]
  -- The worker itself is counted, if it is there to be counted.
  have hpos : (p w && decide (w.plan.registration = name)) = true →
      0 < sys.workers.countP fun v => p v && decide (v.plan.registration = name) := fun h =>
    List.countP_pos_iff.mpr ⟨w, List.mem_of_getElem? hw, h⟩
  simp only [List.countP_set hplace, hget, hplan]
  by_cases hname : w.plan.registration = name
  · simp only [hname, decide_true, Bool.and_true, if_true] at hpos ⊢
    generalize sys.workers.countP _ = count, p w = before,
      p (step ⟨w, sys.broker, sys.samples⟩).worker = after at hpos ⊢
    cases before <;> cases after <;> simp at hpos ⊢ <;> omega
  · simp [hname]

/-- Whatever does not change of workers that are left alone is the same aside, but for new
workers. -/
theorem Aside.map_workers (h : sys.Aside sys') {α : Type} {view : Worker → α}
    (hkept : ∀ w w', w.Kept w' → view w' = view w) :
    ∃ fresh : List Worker, (∀ w ∈ fresh, w.New) ∧
      sys'.workers.map view = sys.workers.map view ++ fresh.map view := by
  have hold : (sys'.workers.take sys.workers.length).map view = sys.workers.map view := by
    refine List.ext_getElem? fun i => ?_
    rw [List.getElem?_map, List.getElem?_map, List.getElem?_take]
    split
    next hi =>
      obtain ⟨w', hw', hk⟩ := h.kept i _ (List.getElem?_eq_getElem hi)
      rw [hw', List.getElem?_eq_getElem hi, Option.map_some, Option.map_some, hkept _ _ hk]
    next hi => rw [List.getElem?_eq_none (Nat.le_of_not_lt hi)]
  refine ⟨sys'.workers.drop sys.workers.length, fun w hw => ?_, ?_⟩
  · obtain ⟨i, hi⟩ := List.mem_iff_getElem?.mp hw
    rw [List.getElem?_drop] at hi
    rcases h.fresh _ w hi with ⟨v, hv, -⟩ | hfresh
    · rw [List.getElem?_eq_none (Nat.le_add_right _ _)] at hv
      cases hv
    · exact hfresh
  · rw [← hold, ← List.map_append, List.take_append_drop]

/-- What is counted of workers that are left alone, and not of new ones, stays the same aside. -/
theorem Aside.countP (h : sys.Aside sys') {p : Worker → Bool}
    (hkept : ∀ w w', w.Kept w' → p w' = p w) (hnew : ∀ w, w.New → p w = false) :
    sys'.workers.countP p = sys.workers.countP p := by
  obtain ⟨fresh, hfresh, hmap⟩ := h.map_workers hkept
  have hnone : fresh.countP p = 0 := by
    rw [List.countP_eq_zero]
    intro w hw
    rw [hnew w (hfresh w hw)]
    exact Bool.false_ne_true
  have hcount : ∀ l : List Worker, l.countP p = (l.map p).countP id := fun l => by
    rw [List.countP_map, Function.id_comp]
  rw [hcount, hmap, List.countP_append, ← hcount, ← hcount, hnone, Nat.add_zero]

/-! ### Samples -/

theorem samples_turns {step : Turn → Turn} (hstep : ∀ t, (step t).samples = t.samples)
    (places : List Nat) (sys : System) : (sys.turns places step).samples = sys.samples := by
  induction places generalizing sys with
  | nil => rfl
  | cons place rest ih =>
    refine (ih (sys.turn place step)).trans ?_
    cases hw : sys.workers[place]? with
    | none => rw [turn_of_none hw]
    | some w =>
      rw [turn_eq hw]
      exact hstep _

theorem samples_requestStop (sys : System) : sys.requestStop.samples = sys.samples := by
  have hstep : ∀ t : Turn, t.requestStop.samples = t.samples := fun _ => rfl
  rw [requestStop]
  split
  · exact samples_turns hstep _ _
  · rfl

theorem samples_dropEngine (sys : System) : sys.dropEngine.samples = sys.samples := by
  have hstep : ∀ t : Turn, t.abandon.samples = t.samples := fun _ => rfl
  rw [dropEngine]
  split
  · exact samples_turns hstep _ _
  · rfl

theorem samples_submit (hs : ∀ w ∈ sys.workers, w.Settled) (r : Registration D H) :
    (sys.submit r).2.samples = sys.samples := by
  cases he : sys.engine with
  | none => rw [submit, he]
  | some e =>
    have hsubmits := submits r hs he
    generalize sys.submit r = result at hsubmits
    cases hsubmits <;> rfl

/-- **Only workers are sampled**: what happens aside writes nothing down. -/
theorem samples_aside (hs : ∀ w ∈ sys.workers, w.Settled) {e : Event D H}
    (h : sys.actor? e = none) : (sys.apply e).samples = sys.samples := by
  cases e with
  | produce tp record =>
    rw [apply]
    split <;> rfl
  | submit r => exact samples_submit hs r
  | requestStop => exact samples_requestStop sys
  | dropEngine => exact samples_dropEngine sys
  | renewEngine => exact samples_dropEngine sys
  | work place ev => rw [apply, turn_of_none h]
  | _ => rfl

/-! ### The accounts -/

/-- Whether an event cuts off a worker of a name before it has begun. -/
def cutsEarly (sys : System) (name : String) : Event D H → Bool
  | .work place ev =>
    sys.workers[place]?.any fun w => decide (w.plan.registration = name) && w.isCutEarlyBy ev
  | _ => false

/-- **The samples agree with the workers of a name**, but for so many workers that were cut off
before they had begun. -/
structure Balanced (sys : System) (name : String) (cuts : Nat) : Prop where
  active : activeWorkers sys.samples name =
    ((sys.workersNamed name).countP Worker.isUnderway : Int) - cuts
  failed : failuresSampled sys.samples name = (sys.workersNamed name).countP Worker.hasFailed

theorem balanced_empty (name : String) : Balanced .empty name 0 := ⟨rfl, rfl⟩

variable {name : String} {cuts : Nat}

/-- What happens aside does not touch the accounts. -/
theorem Balanced.aside (h : sys.Balanced name cuts) (haside : sys.Aside sys')
    (hsamples : sys'.samples = sys.samples) : sys'.Balanced name cuts := by
  have hunderway : (sys'.workersNamed name).countP Worker.isUnderway =
      (sys.workersNamed name).countP Worker.isUnderway := by
    rw [workersNamed, workersNamed, List.countP_filter, List.countP_filter]
    refine haside.countP (fun w w' hk => ?_) fun w hnew => ?_
    · rw [Worker.isUnderway, Worker.isUnderway, hk.activity, hk.phase, hk.plan]
    · rw [Worker.isUnderway_of_not_begun (by rw [hnew.activity]; rfl), Bool.false_and]
  have hfailed : (sys'.workersNamed name).countP Worker.hasFailed =
      (sys.workersNamed name).countP Worker.hasFailed := by
    rw [workersNamed, workersNamed, List.countP_filter, List.countP_filter]
    refine haside.countP (fun w w' hk => ?_) fun w hnew => ?_
    · rw [hk.hasFailed, hk.plan]
    · rw [Worker.hasFailed_of_not_terminal hnew.phase, Bool.false_and]
  exact ⟨by rw [hsamples, hunderway, h.active], by rw [hsamples, hfailed, h.failed]⟩

/-- **What a worker does keeps the accounts**, unless it is cut off before it has begun. -/
theorem Balanced.work (h : sys.Balanced name cuts) {place : Nat} {w : Worker}
    (hw : sys.workers[place]? = some w) (hs : w.Settled) (ev : WorkerEvent) :
    (sys.turn place (ev.apply sys.now)).Balanced name
      (cuts + if sys.cutsEarly name (.work place ev : Event D H) then 1 else 0) := by
  obtain ⟨deed, hdid, -, -⟩ := ev.did sys.now ⟨w, sys.broker, sys.samples⟩
  have htells := ev.tells sys.now (t := ⟨w, sys.broker, sys.samples⟩) hs
  have hgauge := htells.gauge name
  have hcounter := htells.counter name
  have hsamples : (sys.turn place (ev.apply sys.now)).samples =
      (ev.apply sys.now ⟨w, sys.broker, sys.samples⟩).samples := by rw [turn_eq hw]
  have hunderway := countP_turn hw hdid.plan Worker.isUnderway name
  have hfailed := countP_turn hw hdid.plan Worker.hasFailed name
  have hactive := h.active
  have hfailures := h.failed
  have hcut : sys.cutsEarly name (.work place ev : Event D H) =
      (decide (w.plan.registration = name) && w.isCutEarlyBy ev) := by
    rw [cutsEarly, hw]
    rfl
  simp only [Turn.registration] at hgauge hcounter
  constructor
  · rw [hsamples, hgauge, hunderway, hactive, hcut]
    by_cases hname : w.plan.registration = name
    · simp only [hname, if_true, decide_true, Bool.true_and]
      cases w.isCutEarlyBy ev <;> simp <;> omega
    · simp [hname]
  · rw [hsamples]
    by_cases hname : w.plan.registration = name
    · simp only [hname, if_true] at hcounter hfailed
      omega
    · simp only [hname, if_false] at hcounter hfailed
      omega

/-- **One more event keeps the accounts**, unless it cuts off a worker before it has begun. -/
theorem Balanced.apply (h : sys.Balanced name cuts) (hs : ∀ w ∈ sys.workers, w.Settled)
    (e : Event D H) :
    (sys.apply e).Balanced name (cuts + if sys.cutsEarly name e then 1 else 0) := by
  rcases apply_cases hs e with ⟨haside, hactor⟩ | ⟨place, w, ev, deed, w', rfl, hacts⟩
  · have hcut : sys.cutsEarly name e = false := by
      cases e with
      | work place ev => rw [cutsEarly, show sys.workers[place]? = none from hactor]; rfl
      | _ => rfl
    rw [hcut]
    exact h.aside haside (samples_aside hs hactor)
  · exact h.work hacts.before (hs w (List.mem_of_getElem? hacts.before)) ev

end System

namespace History

variable {D H : Type}

/-- How many workers of a name were cut off before they had begun. -/
def earlyCuts (name : String) (events : List (Event D H)) : Nat :=
  (events.foldl
    (fun (seen : System × Nat) e =>
      (seen.1.apply e, seen.2 + if seen.1.cutsEarly name e then 1 else 0))
    (.empty, 0)).2

theorem earlyCuts_concat (name : String) (events : List (Event D H)) (e : Event D H) :
    earlyCuts name (events ++ [e]) =
      earlyCuts name events + if (of events).system.cutsEarly name e then 1 else 0 := by
  have hsystem : (events.foldl
      (fun (seen : System × Nat) e =>
        (seen.1.apply e, seen.2 + if seen.1.cutsEarly name e then 1 else 0))
      (.empty, 0)).1 = (of events).system := by
    clear e
    induction events using List.reverseRecOn with
    | nil => rfl
    | append_singleton events e ih =>
      rw [List.foldl_append, system_concat, ← ih]
      rfl
  rw [earlyCuts, List.foldl_append, ← hsystem]
  rfl

/-- The samples agree with the workers throughout every history. -/
theorem balanced (name : String) (events : List (Event D H)) :
    (of events).system.Balanced name (earlyCuts name events) := by
  induction events using List.reverseRecOn with
  | nil => exact System.balanced_empty name
  | append_singleton events e ih =>
    rw [system_concat, earlyCuts_concat]
    exact ih.apply (sound events).settled e

/-- **What is exported of the workers of a registration.** Throughout every history, the gauge of
a name shows how many of its workers are underway, less those that were cut off before they had
begun, and the counter shows how many of them are reported as failed. So if no worker was cut off
so early then the gauge is never negative. When all workers of the name have published final
phases, the gauge is back at zero exactly if none was. -/
theorem workers_accounted (events : List (Event D H)) (name : String) :
    activeWorkers (of events).system.samples name =
      (((of events).system.workersNamed name).countP Worker.isUnderway : Int) -
        earlyCuts name events ∧
    workerFailures (of events).system.samples name =
      lowWord64 (((of events).system.workersNamed name).countP Worker.hasFailed) ∧
    (earlyCuts name events = 0 → 0 ≤ activeWorkers (of events).system.samples name) ∧
    ((∀ w ∈ (of events).system.workersNamed name, w.phase.isTerminal = true) →
      (activeWorkers (of events).system.samples name = 0 ↔ earlyCuts name events = 0)) := by
  obtain ⟨hactive, hfailed⟩ := balanced name events
  refine ⟨hactive, by rw [workerFailures_eq, hfailed], fun hcuts => ?_, fun hall => ?_⟩
  · rw [hactive, hcuts]
    omega
  · have hnone : ((of events).system.workersNamed name).countP Worker.isUnderway = 0 := by
      rw [List.countP_eq_zero]
      intro w hw
      rw [Worker.isUnderway_of_terminal (hall w hw)]
      exact Bool.false_ne_true
    rw [hactive, hnone]
    omega

/-! ### A worker that is cut off at once -/

/-- A registration is submitted, and its worker is cut off before it begins. -/
def cutAtOnce : List (Event Unit Unit) :=
  [.createTopic "orders" ⟨1, 1, ∅⟩, .submit (orderReader "first"), .work 0 .abort]

/-- The gauge is as far below zero as workers were cut off early. -/
theorem workers_accounted_cutAtOnce :
    (∀ w ∈ (of cutAtOnce).system.workersNamed "first", w.phase.isTerminal = true) ∧
      earlyCuts "first" cutAtOnce = 1 ∧
      activeWorkers (of cutAtOnce).system.samples "first" = -1 ∧
      workerFailures (of cutAtOnce).system.samples "first" = 0 := by
  obtain ⟨hactive, hfailed, -, -⟩ := workers_accounted cutAtOnce "first"
  have hcuts : earlyCuts "first" cutAtOnce = 1 := by decide +kernel
  refine ⟨by decide +kernel, hcuts, ?_, ?_⟩
  · rw [hactive, hcuts]
    decide +kernel
  · rw [hfailed]
    decide +kernel

/-- **A worker that never ran is taken off the gauge**: all workers of the registration have
stopped, and it is reported to have one running worker less than none. -/
theorem cut_at_once :
    ((of cutAtOnce).system.workersNamed "first").map (·.phase) = [.stopped] ∧
      (gauges (of cutAtOnce).system.samples).entries =
        [(registrationSeries "consumer_workers_active" "first" [], -1)] :=
  ⟨by decide +kernel, by decide +kernel⟩

end History

end StreamDispatch
