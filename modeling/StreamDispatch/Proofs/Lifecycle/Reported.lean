import StreamDispatch.Proofs.Lifecycle.Listing

/-!
# What is reported of workers that are over

A worker that ends by itself publishes its final phase, and whoever cuts a worker off
publishes one for it. When a decoder or a policy breaks down, however, the worker ends without
anybody publishing anything, and it is reported as it was before, running as a rule, until
somebody waits for it or cuts it off. As long as nobody does, its registration counts as
active, and another one of its name is refused (`StreamDispatch.History.breakdown_unreported`).

Handlers are different: a handler that breaks down has merely failed, and the policy is asked.

This is the only way in which the end of a worker is not reported. A worker *broke down
unnoticed* in a history (`StreamDispatch.History.BrokeDown`) when it was ended by a breakdown
and nobody has taken note of it since. Every other worker that is over has a final phase, and
a registration all of whose workers are over is at its end, and makes room for another of its
name, exactly if none of them broke down unnoticed.
-/

namespace StreamDispatch

/-- Whether an event takes note of the end of the worker at a place. -/
def Event.notes {D H : Type} (place : Nat) : Event D H → Bool
  | .work p ev => decide (p = place) && ev.takesNote
  | _ => false

theorem Event.notes_work {D H : Type} (place : Nat) (ev : WorkerEvent) :
    (Event.work place ev : Event D H).notes place = ev.takesNote := by
  simp [notes]

theorem Event.notes_eq_false {D H : Type} {place : Nat} {e : Event D H}
    (h : ∀ ev, e ≠ .work place ev) : e.notes place = false := by
  cases e with
  | work p ev =>
    have hne : p ≠ place := by
      rintro rfl
      exact h ev rfl
    simp [notes, hne]
  | _ => rfl

namespace History

variable {D H : Type}

/-- **The worker at a place broke down unnoticed**: one of the application's own parts broke
down under it, and nobody has waited for it or cut it off since. -/
inductive BrokeDown (place : Nat) : List (Event D H) → Prop
  | now {events : List (Event D H)} {w : Worker} (message : String)
      (hw : (of events).system.workers[place]? = some w)
      (hruns : Turn.runsApplication w.activity = true) :
      BrokeDown place (events ++ [.work place (.crash message)])
  | still {events : List (Event D H)} {e : Event D H} (h : BrokeDown place events)
      (hnotes : e.notes place = false) : BrokeDown place (events ++ [e])

theorem BrokeDown.worker {place : Nat} {events : List (Event D H)} (h : BrokeDown place events) :
    ∃ w, (of events).system.workers[place]? = some w := by
  induction h with
  | @now events w message hw _ =>
    rw [system_concat]
    obtain ⟨w', hw', -⟩ := System.worker_apply (sound events) (.work place (.crash message)) hw
    exact ⟨w', hw'⟩
  | @still events e _ _ ih =>
    obtain ⟨w, hw⟩ := ih
    rw [system_concat]
    obtain ⟨w', hw', -⟩ := System.worker_apply (sound events) e hw
    exact ⟨w', hw'⟩

/-- Whether a worker broke down unnoticed changes with the last event. -/
theorem brokeDown_concat {place : Nat} {events : List (Event D H)} {e : Event D H} :
    BrokeDown place (events ++ [e]) ↔
      (∃ message w, e = .work place (.crash message) ∧
        (of events).system.workers[place]? = some w ∧
        Turn.runsApplication w.activity = true) ∨
      BrokeDown place events ∧ e.notes place = false := by
  constructor
  · intro h
    generalize hall : events ++ [e] = all at h
    -- Both histories end with the same event, whichever way the worker broke down.
    cases h with
    | now message hw hruns =>
      obtain ⟨rfl, hlast⟩ := List.append_inj' hall rfl
      cases hlast
      exact .inl ⟨message, _, rfl, hw, hruns⟩
    | still h hnotes =>
      obtain ⟨rfl, hlast⟩ := List.append_inj' hall rfl
      cases hlast
      exact .inr ⟨h, hnotes⟩
  · rintro (⟨message, w, rfl, hw, hruns⟩ | ⟨h, hnotes⟩)
    · exact .now message hw hruns
    · exact .still h hnotes

/-- **Exactly the workers that broke down unnoticed are over without a final phase.** -/
theorem isUnnoticed_iff (events : List (Event D H)) {place : Nat} {w : Worker}
    (hw : (of events).system.workers[place]? = some w) :
    w.isUnnoticed = true ↔ BrokeDown place events := by
  induction events using List.reverseRecOn generalizing w with
  | nil => cases hw
  | append_singleton events e ih =>
    have hsettled := (sound events).settled
    rw [system_concat] at hw
    rw [brokeDown_concat]
    rcases System.becomes hsettled e hw with
      ⟨hnone, hnew⟩ | ⟨u, hu, hkept, hidle⟩ | ⟨u, ev, deed, rfl, hacts⟩
    · -- Nobody was at this place before, so nobody broke down there.
      constructor
      · intro hun
        rw [Worker.isUnnoticed, hnew.activity] at hun
        cases hun
      · rintro (⟨message, u, -, hu, -⟩ | ⟨hbroke, -⟩)
        · rw [hnone] at hu
          cases hu
        · obtain ⟨u, hu⟩ := hbroke.worker
          rw [hnone] at hu
          cases hu
    · -- The worker is left alone, and nobody takes note of it.
      have hsame : w.isUnnoticed = u.isUnnoticed := by
        rw [Worker.isUnnoticed, hkept.activity, hkept.phase]
        rfl
      rw [hsame, ih hu]
      constructor
      · intro hbroke
        exact .inr ⟨hbroke, Event.notes_eq_false hidle⟩
      · rintro (⟨message, -, heq, -⟩ | ⟨hbroke, -⟩)
        · exact absurd heq (hidle (.crash message))
        · exact hbroke
    · -- The worker itself acts, and breaks down, or is taken note of, or neither.
      have hpasses : w.isUnnoticed = (u.breaksDownBy ev || (u.isUnnoticed && !ev.takesNote)) :=
        (hacts.passes (hsettled u (List.mem_of_getElem? hacts.before))).unnoticed
      rw [hpasses, Bool.or_eq_true, Bool.and_eq_true, ih hacts.before, Event.notes_work,
        Bool.not_eq_true', Worker.breaksDownBy_iff]
      constructor
      · rintro (⟨message, rfl, hruns⟩ | hbroke)
        · exact .inl ⟨message, u, rfl, hacts.before, hruns⟩
        · exact .inr hbroke
      · rintro (⟨message, v, heq, hv, hruns⟩ | hbroke)
        · cases heq
          obtain rfl : u = v := Option.some.inj (hacts.before.symm.trans hv)
          exact .inl ⟨message, rfl, hruns⟩
        · exact .inr hbroke

/-! ### Reports -/

/-- A worker that is over is reported as such exactly if it did not break down unnoticed. -/
theorem terminal_iff_of_over (events : List (Event D H)) {place : Nat} {w : Worker}
    (hw : (of events).system.workers[place]? = some w) (hover : w.activity.isOver = true) :
    w.phase.isTerminal = true ↔ ¬ BrokeDown place events := by
  rw [← isUnnoticed_iff events hw, Worker.isUnnoticed, hover]
  cases w.phase.isTerminal <;> simp

/-- **What is reported once workers are over.** The phase of a worker that is over is final
exactly if the worker did not break down unnoticed. A listener whose workers are all over is
at its end exactly if none of them did, and exactly then a registration of its name is not
refused as a duplicate. -/
theorem over_reported (events : List (Event D H)) :
    (∀ (place : Nat) (w : Worker), (of events).system.workers[place]? = some w →
      w.activity.isOver = true → (w.phase.isTerminal = true ↔ ¬ BrokeDown place events)) ∧
    ∀ (e : Engine) (l : Listener), (of events).system.engine = some e → l ∈ e.listeners →
      (∀ w ∈ (of events).system.workersOf l, w.activity.isOver = true) →
      (((of events).system.stateOf l).isTerminal = true ↔
        ∀ place ∈ l.workers, ¬ BrokeDown place events) ∧
      ∀ r : Registration D H, r.name = l.name →
        (((of events).system.submit r).1 ≠ some (.error (.duplicate l.name)) ↔
          ∀ place ∈ l.workers, ¬ BrokeDown place events) := by
  refine ⟨fun place w hw hover => terminal_iff_of_over events hw hover, ?_⟩
  intro e l he hl hover
  have hlisted := listed events
  have hstate : ((of events).system.stateOf l).isTerminal = true ↔
      ∀ place ∈ l.workers, ¬ BrokeDown place events := by
    rw [hlisted.terminal_iff he hl]
    constructor
    · intro hall place hplace hbroke
      obtain ⟨w, hw⟩ := hbroke.worker
      have hw' := hover w (System.mem_workersOf.mpr ⟨place, hplace, hw⟩)
      exact (terminal_iff_of_over events hw hw').mp (hall place hplace w hw) hbroke
    · intro hnone place hplace w hw
      have hw' := hover w (System.mem_workersOf.mpr ⟨place, hplace, hw⟩)
      exact (terminal_iff_of_over events hw hw').mpr (hnone place hplace)
  refine ⟨hstate, fun r hname => ?_⟩
  rw [← hstate, ← hname, ne_eq, hlisted.duplicate_iff he hl r hname, Bool.not_eq_false]

/-! ### A decoder breaks down -/

/-- A worker reads a record, and the decoder of its key breaks down. -/
def breakdown : List (Event Unit Unit) :=
  [.createTopic "orders" ⟨2, 1, ∅⟩, .produce secondOrders ⟨none, none, 0, []⟩,
    .submit (orderReader "first"), .work 0 .start, .work 0 .poll,
    .work 0 (.crash "deserializer exploded")]

theorem over_reported_breakdown :
    ∃ w e l, (of breakdown).system.workers[0]? = some w ∧ w.activity.isOver = true ∧
      (w.phase.isTerminal = true ↔ ¬ BrokeDown 0 breakdown) ∧
      (of breakdown).system.engine = some e ∧ l ∈ e.listeners ∧
      (((of breakdown).system.stateOf l).isTerminal = true ↔
        ∀ place ∈ l.workers, ¬ BrokeDown place breakdown) := by
  obtain ⟨hworkers, hlisteners⟩ := over_reported breakdown
  have hover : ((of breakdown).system.workers[0]?).map (·.activity.isOver) = some true := by
    decide +kernel
  have hlisted : (of breakdown).system.engine.map (·.listeners) =
      some [⟨"first", none, 30000, [0]⟩] := by decide +kernel
  have hall : ∀ w ∈ (of breakdown).system.workersOf ⟨"first", none, 30000, [0]⟩,
      w.activity.isOver = true := by decide +kernel
  obtain ⟨w, hw, hover⟩ := Option.map_eq_some_iff.mp hover
  obtain ⟨e, he, hlisteners_eq⟩ := Option.map_eq_some_iff.mp hlisted
  have hmem : (⟨"first", none, 30000, [0]⟩ : Listener) ∈ e.listeners := by
    rw [hlisteners_eq]
    exact List.mem_singleton.mpr rfl
  exact ⟨w, e, _, hw, hover, hworkers 0 w hw hover, he, hmem, (hlisteners e _ he hmem hall).1⟩

/-- **A breakdown goes unreported**: the worker is over and has left its group, and is still
reported as running; so is its registration, and another one of its name is refused. -/
theorem breakdown_unreported :
    ((of breakdown).system.workers[0]?).map
        (fun w => (w.activity, w.session.subscribed, w.phase)) =
      some (.panicked "deserializer exploded", false, .running) ∧
    (of breakdown).system.status.map (fun l => (l.name, l.state)) = [("first", .running)] ∧
    ((of breakdown).system.submit (orderReader "first")).1 =
      some (.error (.duplicate "first")) :=
  ⟨by decide +kernel, by decide +kernel, rfl⟩

end History

end StreamDispatch
