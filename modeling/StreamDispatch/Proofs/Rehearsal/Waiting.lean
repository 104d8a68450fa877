import StreamDispatch.Proofs.System.Waiting
import StreamDispatch.Rehearsal.Engine

/-!
# Rehearsals while an engine waits

A rehearsal settles everything that is left open by a system: when each worker gets to run,
what the application answers, and when the clock moves. Whatever it settles, all that happens
to the system in between are steps of workers and the passing of time. So while an engine
waits in a rehearsal, the system goes on as it may (`StreamDispatch.System.GoesOn`), and what
is known of any course of things is known of the one that is rehearsed.

This is used for shutting an engine down: each way in which that is rehearsed, with handlers
that are held up or not, is one of the two ways of shutting down.

## Main statements

* `StreamDispatch.Rehearsal.goesOn_next?`: a worker that does the next thing takes one step at
  most.
* `StreamDispatch.Rehearsal.goesOn_round`, `StreamDispatch.Rehearsal.goesOn_run`: running all
  workers, once or until they wait.
* `StreamDispatch.Rehearsal.shutsDown_shutdown`, `StreamDispatch.Rehearsal.shutsDownNow`: what is
  rehearsed shuts the engine down.
-/

namespace StreamDispatch

namespace Rehearsal

/-! ### One worker -/

theorem goesOn_turn (r : Rehearsal) (place : Nat) (ev : WorkerEvent) :
    r.system.GoesOn (r.turn place (ev.apply r.system.now)).system :=
  .turn r.system place ev

/-- Whichever way a decoder answers, the worker takes one step. -/
theorem goesOn_decode (r : Rehearsal) (place : Nat) (decoder : ScriptedDecoder) (topic : String)
    (data : Option Bytes) {step : Except String Unit → Turn → Turn}
    (ev : Except String Unit → WorkerEvent)
    (hstep : ∀ result, step result = (ev result).apply r.system.now) :
    r.system.GoesOn (r.decode place decoder topic data step).system := by
  rw [decode]
  split
  next message _ => exact r.goesOn_turn place (.crash message)
  next e _ =>
    rw [hstep]
    exact r.goesOn_turn place _
  next =>
    rw [hstep]
    exact r.goesOn_turn place _

theorem goesOn_rule (r : Rehearsal) (place : Nat) (app : Application) (job : Job)
    (failure : RecordFailure) : r.system.GoesOn (r.rule place app job failure).system := by
  rw [rule]
  split
  next message _ => exact r.goesOn_turn place (.crash message)
  next d _ =>
    -- That the decision is written down does not concern the system.
    simp only
    split
    · exact System.GoesOn.turn r.system place (.decided d)
    · exact System.GoesOn.turn r.system place (.decided d)

/-- **A worker that does the next thing takes one step at most.** -/
theorem goesOn_next? {r r' : Rehearsal} {place : Nat} {w : Worker} {i : Nat} {app : Application}
    {more : Bool} (h : r.next? place w i app = some (r', more)) :
    r.system.GoesOn r'.system := by
  rw [next?] at h
  split at h
  · cases h
    exact r.goesOn_turn place .start
  · cases h
    exact r.goesOn_turn place .poll
  · split at h
    · cases h
      exact r.goesOn_turn place .poll
    · cases h
  · cases h
    exact r.goesOn_decode place _ _ _ .keyDecoded fun _ => rfl
  · cases h
    exact r.goesOn_decode place _ _ _ .valueDecoded fun _ => rfl
  · split at h
    · -- The call is written down, and nothing happens to the system.
      cases h
      exact .refl
    · split at h
      · cases h
      next result _ _ =>
        cases h
        exact System.GoesOn.turn r.system place (.handled 0 result)
  · cases h
    exact r.goesOn_rule place app _ _
  · split at h
    · cases h
      exact r.goesOn_turn place .resume
    · cases h
  · cases h
    exact r.goesOn_turn place .close
  · cases h
  · cases h
  · cases h

theorem goesOn_sliceFrom (fuel : Nat) (busy : Bool) (r : Rehearsal) (place : Nat) :
    r.system.GoesOn (sliceFrom fuel busy r place).1.system := by
  induction fuel generalizing busy r with
  | zero => exact .refl
  | succ fuel ih =>
    rw [sliceFrom]
    split
    next w i app _ _ =>
      split
      next => exact .refl
      next hnext => exact goesOn_next? hnext
      next hnext => exact (goesOn_next? hnext).trans (ih true _)
    next => exact .refl

theorem goesOn_slice (r : Rehearsal) (place : Nat) :
    r.system.GoesOn (r.slice place).1.system := goesOn_sliceFrom patience false r place

/-! ### All workers -/

theorem goesOn_round (r : Rehearsal) : r.system.GoesOn r.round.1.system := by
  rw [round]
  generalize List.range r.system.workers.length = places
  -- The workers run one after the other.
  suffices hall : ∀ acc : Rehearsal × Bool, acc.1.system.GoesOn
      (places.foldl (fun (acc : Rehearsal × Bool) place =>
        ((acc.1.slice place).1, acc.2 || (acc.1.slice place).2)) acc).1.system from
    hall (r, false)
  induction places with
  | nil => exact fun _ => .refl
  | cons place rest ih =>
    intro acc
    rw [List.foldl_cons]
    exact (acc.1.goesOn_slice place).trans
      (ih ((acc.1.slice place).1, acc.2 || (acc.1.slice place).2))

/-- The clock moves by waiting. -/
theorem goesOn_setClock (r : Rehearsal) (now : Nat) :
    r.system.GoesOn (r.setClock now).system := by
  have hnow : max r.system.now now = r.system.now + (now - r.system.now) := by omega
  rw [setClock, hnow]
  exact .step .refl (.wait (now - r.system.now)) rfl

theorem goesOn_runFrom (fuel limit : Nat) (done : Rehearsal → Bool) (r : Rehearsal) :
    r.system.GoesOn (runFrom fuel limit done r).1.system := by
  have hround : ∀ {r r₁ : Rehearsal} {busy : Bool}, r.round = (r₁, busy) →
      r.system.GoesOn r₁.system := by
    intro r r₁ busy h
    have hgoes := r.goesOn_round
    rwa [h] at hgoes
  fun_induction runFrom fuel limit done r with
  | case1 limit done r => exact .refl
  | case2 fuel limit done r _ => exact .refl
  | case3 fuel limit done r _ r₁ h ih => exact (hround h).trans ih
  | case4 fuel limit done r _ r₁ _ h _ _ => exact hround h
  | case5 fuel limit done r _ r₁ _ h _ _ deadline _ _ ih =>
    exact (hround h).trans ((r₁.goesOn_setClock deadline).trans ih)
  | case6 fuel limit done r _ r₁ _ h _ _ _ _ _ => exact (hround h).trans (r₁.goesOn_setClock limit)
  | case7 fuel limit done r _ r₁ _ h _ _ _ => exact (hround h).trans (r₁.goesOn_setClock limit)

theorem goesOn_run (r : Rehearsal) (limit : Nat) (done : Rehearsal → Bool) :
    r.system.GoesOn (r.run limit done).1.system := goesOn_runFrom patience limit done r

theorem goesOn_settle (r : Rehearsal) : r.system.GoesOn r.settle.system :=
  r.goesOn_run r.system.now fun _ => false

/-- A run that stops because a condition holds stops where it holds. -/
theorem done_of_runFrom (fuel limit : Nat) (done : Rehearsal → Bool) (r : Rehearsal)
    (h : (runFrom fuel limit done r).2 = true) : done (runFrom fuel limit done r).1 = true := by
  fun_induction runFrom fuel limit done r with
  | case2 fuel limit done r hdone => exact hdone
  | case3 fuel limit done r _ r₁ _ ih => exact ih h
  | case5 fuel limit done r _ r₁ _ _ _ _ deadline _ _ ih => exact ih h
  -- In all other cases the condition does not hold.
  | _ => cases h

/-! ### Shutting down -/

/-- Taking note of the end of a worker that is over is how waiting for it ends. -/
theorem turn_join {r : Rehearsal} {place : Nat} (hover : r.isOver place = true) :
    r.system.turn place Turn.join = r.system.turn place Turn.await := by
  rw [isOver] at hover
  cases hw : r.system.workers[place]? with
  | none => rw [System.turn_of_none hw, System.turn_of_none hw]
  | some w =>
    rw [hw] at hover
    have hawait : (⟨w, r.system.broker, r.system.samples⟩ : Turn).await =
        (⟨w, r.system.broker, r.system.samples⟩ : Turn).join := if_pos hover
    rw [System.turn_eq hw, System.turn_eq hw, hawait]

/-- Whenever a worker is over or its time is up, waiting for it ends. -/
theorem goesOn_joinWorker (deadline : Nat) (r : Rehearsal) (place : Nat) :
    ∃ sys, r.system.GoesOn sys ∧
      (joinWorker deadline r place).system = sys.turn place Turn.await := by
  rw [joinWorker]
  split
  next hover => exact ⟨r.system, .refl, turn_join hover⟩
  next =>
    split
    next =>
      rw [Turn.await_eq_abort]
      exact ⟨r.system, .refl, rfl⟩
    next =>
      have hrun := r.goesOn_run deadline (isOver place)
      have hdone := done_of_runFrom patience deadline (isOver place) r
      rw [← run] at hdone
      generalize r.run deadline (isOver place) = result at hrun hdone
      obtain ⟨r', done⟩ := result
      refine ⟨r'.system, hrun, ?_⟩
      cases done with
      | true => exact turn_join (hdone rfl)
      | false =>
        rw [Turn.await_eq_abort]
        rfl

theorem collects_joinWorker (deadline : Nat) (places : List Nat) (r : Rehearsal) :
    System.Collects Turn.await places r.system
      (places.foldl (joinWorker deadline) r).system := by
  induction places generalizing r with
  | nil => exact .nil .refl
  | cons place rest ih =>
    obtain ⟨sys, hwaits, hturn⟩ := goesOn_joinWorker deadline r place
    rw [List.foldl_cons]
    refine .cons hwaits ?_
    rw [← hturn]
    exact ih _

/-- **Waiting for all workers** and giving the engine up. -/
theorem collects_joinAll (r : Rehearsal) (requested : Nat) {e : Engine}
    (he : r.system.engine = some e) :
    ∃ sys, System.Collects Turn.await (e.listeners.flatMap (·.workers)) r.system sys ∧
      (r.joinAll requested).1 = sys.status ∧
      (r.joinAll requested).2.system = { sys with engine := none } := by
  simp only [joinAll, he]
  refine ⟨_, ?_, rfl, rfl⟩
  clear he
  generalize e.listeners = listeners
  induction listeners generalizing r with
  | nil => exact .nil .refl
  | cons l rest ih => exact (collects_joinWorker _ l.workers r).append (ih _)

variable {r : Rehearsal} {e : Engine}

/-- **A rehearsed shutdown is one**, whatever else is rehearsed before the workers are waited
for. -/
theorem shutsDown_joinAll (he : r.system.engine = some e) {r₁ : Rehearsal}
    (hwaits : r.system.requestStop.GoesOn r₁.system) (requested : Nat) :
    r.system.ShutsDown (r₁.joinAll requested).1 (r₁.joinAll requested).2.system := by
  have he₁ : r₁.system.engine = some e :=
    hwaits.engine.trans (r.system.engine_requestStop.1.trans he)
  obtain ⟨sys, hcollects, hreports, hsystem⟩ := r₁.collects_joinAll requested he₁
  exact ⟨e, sys, he, hcollects.after hwaits, hreports, hsystem⟩

theorem shutsDown_shutdown (he : r.system.engine = some e) :
    r.system.ShutsDown r.shutdown.1 r.shutdown.2.system :=
  shutsDown_joinAll he .refl _

theorem shutsDown_shutdownReleasing (he : r.system.engine = some e) :
    r.system.ShutsDown r.shutdownReleasing.2.1 r.shutdownReleasing.2.2.system :=
  shutsDown_joinAll he .refl _

theorem shutsDown_shutdownAborting (he : r.system.engine = some e) (ms : Nat) :
    r.system.ShutsDown (r.shutdownAborting ms).2.1 (r.shutdownAborting ms).2.2.system :=
  shutsDown_joinAll he
    ((goesOn_settle { r with system := r.system.requestStop }).trans (goesOn_setClock _ _)) _

/-! ### Cutting off -/

theorem collects_cutOff (places : List Nat) (r : Rehearsal) :
    System.Collects Turn.abort places r.system (places.foldl cutOff r).system := by
  induction places generalizing r with
  | nil => exact .nil .refl
  | cons place rest ih =>
    rw [List.foldl_cons]
    refine .cons .refl ((ih _).after ?_)
    rw [cutOff]
    split
    · exact .refl
    · exact (r.turn place Turn.abort).goesOn_round

theorem cutsOff_cutOffAll (listeners : List Listener) (statuses : List ListenerStatus)
    (r : Rehearsal) :
    ∃ reports, (r.cutOffAll listeners statuses).1 = statuses ++ reports ∧
      System.CutsOff listeners r.system reports (r.cutOffAll listeners statuses).2.system := by
  induction listeners generalizing statuses r with
  | nil => exact ⟨[], (List.append_nil _).symm, .nil⟩
  | cons l rest ih =>
    obtain ⟨reports, hreports, hcuts⟩ :=
      ih (statuses ++ [(l.workers.foldl cutOff r).system.statusOf l]) (l.workers.foldl cutOff r)
    refine ⟨(l.workers.foldl cutOff r).system.statusOf l :: reports, ?_,
      .cons (collects_cutOff l.workers r) hcuts⟩
    rw [List.append_cons]
    exact hreports

/-- **Cutting everything off, rehearsed**, shuts the engine down at once. -/
theorem shutsDownNow (he : r.system.engine = some e) :
    r.system.ShutsDownNow r.shutdownNow.1 r.shutdownNow.2.system := by
  obtain ⟨reports, hreports, hcuts⟩ := cutsOff_cutOffAll e.listeners [] r
  rw [shutdownNow, he]
  refine ⟨e, _, he, ?_, rfl⟩
  show System.CutsOff e.listeners r.system (r.cutOffAll e.listeners []).1 _
  rw [hreports]
  exact hcuts

end Rehearsal

end StreamDispatch
