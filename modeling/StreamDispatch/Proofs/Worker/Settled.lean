import StreamDispatch.Proofs.Worker.Published

/-!
# What a worker has published when it is over

A worker publishes its final phase itself when it closes, and whoever cuts it off publishes
one for it. The exception is a breakdown in the worker's own code: nobody publishes anything
until somebody waits for the worker or cuts it off. Such a worker is *unnoticed*
(`StreamDispatch.Worker.isUnnoticed`): over, and still reported as being at work.

## Main statements

* `StreamDispatch.WorkerEvent.passes`: final phases are only published for workers that are
  over, and a worker that ended or was cut off has one. Exactly a breakdown makes a worker
  unnoticed, and exactly waiting for it or cutting it off makes it noticed.
-/

namespace StreamDispatch

/-- A worker that is asked to stop drains, unless its phase is final. -/
theorem Turn.phase_requestStop (t : Turn) :
    t.requestStop.worker.phase = if t.worker.phase.isTerminal then t.worker.phase else .draining := by
  show List.headD (if t.worker.phase.isTerminal then _ else _) _ = _
  split <;> rfl

theorem Turn.isTerminal_requestStop (t : Turn) :
    t.requestStop.worker.phase.isTerminal = t.worker.phase.isTerminal := by
  rw [phase_requestStop]
  split
  next => rfl
  next hp => exact (Bool.eq_false_iff.mpr hp).symm

/-- **What is published fits what the worker is doing.** -/
structure Worker.Settled (w : Worker) : Prop where
  /-- Only workers that are over have a final phase. -/
  isOver : w.phase.isTerminal = true → w.activity.isOver = true
  /-- Whatever a worker closes with is final. -/
  closing : ∀ p, w.activity = .closing p → p.isTerminal = true
  /-- A worker that ended or was cut off has a final phase. -/
  told : w.activity = .ended ∨ w.activity = .cancelled → w.phase.isTerminal = true
  /-- The final phase of a worker that broke down says so. -/
  broken : ∀ message, w.activity = .panicked message → w.phase.isTerminal = true →
    w.phase = .failed (Turn.breakdownText message)

/-- A worker that is over without having published a final phase. -/
def Worker.isUnnoticed (w : Worker) : Bool := w.activity.isOver && !w.phase.isTerminal

/-- Whether an event is a breakdown of the worker. -/
def Worker.breaksDownBy (w : Worker) : WorkerEvent → Bool
  | .crash _ => Turn.runsApplication w.activity
  | _ => false

theorem Worker.breaksDownBy_iff {w : Worker} {ev : WorkerEvent} :
    w.breaksDownBy ev = true ↔
      ∃ message, ev = .crash message ∧ Turn.runsApplication w.activity = true := by
  cases ev <;> simp [breaksDownBy]

/-- Whether an event takes note of the end of a worker. -/
def WorkerEvent.takesNote : WorkerEvent → Bool
  | .join => true
  | .abort => true
  | _ => false

/-- Whether an event asks a worker to stop. -/
def WorkerEvent.asksToStop : WorkerEvent → Bool
  | .requestStop => true
  | _ => false

namespace Worker.Settled

variable {w : Worker}

theorem not_terminal (h : w.Settled) (hover : w.activity.isOver = false) :
    w.phase.isTerminal = false := by
  cases hphase : w.phase.isTerminal with
  | false => rfl
  | true =>
    rw [h.isOver hphase] at hover
    cases hover

/-- Only a breakdown goes unnoticed. -/
theorem panicked_of_unnoticed (h : w.Settled) (hun : w.isUnnoticed = true) :
    ∃ message, w.activity = .panicked message := by
  obtain ⟨hover, hphase⟩ : w.activity.isOver = true ∧ w.phase.isTerminal = false := by
    simpa [isUnnoticed] using hun
  cases hactivity : w.activity with
  | panicked message => exact ⟨message, rfl⟩
  | ended => simp [h.told (.inl hactivity)] at hphase
  | cancelled => simp [h.told (.inr hactivity)] at hphase
  | _ => simp [hactivity, Activity.isOver] at hover

end Worker.Settled

namespace Turn

/-! ### A worker that goes on -/

/-- The worker goes on: no final phase is published, and it is about to close at most. -/
structure Goes (t t' : Turn) : Prop where
  phase : t'.worker.phase.isTerminal = t.worker.phase.isTerminal
  announces : t.worker.Announces false t'.worker
  alive : t'.worker.activity.isOver = false
  closing : ∀ p, t'.worker.activity = .closing p → p.isTerminal = true

variable {t : Turn}

theorem goes_finish (t : Turn) {p : Phase} (hp : p.isTerminal = true) : t.Goes (t.finish p) where
  phase := rfl
  announces := .nothing rfl
  alive := rfl
  closing q hq := by
    cases hq
    exact hp

/-- What was counted, sampled or sent to the broker before does not matter. -/
theorem Goes.after {t t₁ t' : Turn} (h : t₁.Goes t')
    (hpublished : t₁.worker.published = t.worker.published) : t.Goes t' where
  phase := h.phase.trans (by rw [Worker.phase, hpublished, Worker.phase])
  announces := h.announces.of_published hpublished
  alive := h.alive
  closing := h.closing

theorem goes_enter (t : Turn) {a : Activity} (halive : a.isOver = false)
    (hclosing : ∀ p, a ≠ .closing p) : t.Goes (t.enter a) where
  phase := rfl
  announces := .nothing rfl
  alive := halive
  closing p hp := absurd hp (hclosing p)

theorem goes_commitThen (t : Turn) (offsets : List CommitOffset) {next : Turn → Turn}
    (hnext : ∀ t₁ : Turn, t₁.Goes (next t₁)) : t.Goes (t.commitThen offsets next) := by
  rw [commitThen]
  split
  · exact (hnext _).after rfl
  · exact (goes_finish _ rfl).after rfl

theorem goes_commitResolvedThen (t : Turn) (resolved : Dict TopicPartition Int)
    {next : Turn → Turn} (hnext : ∀ t₁ : Turn, t₁.Goes (next t₁)) :
    t.Goes (t.commitResolvedThen resolved next) := by
  rw [commitResolvedThen]
  split
  · exact hnext t
  · exact goes_commitThen t _ hnext

theorem goes_nextRecord (t : Turn) (job : Job) : t.Goes (t.nextRecord job) := by
  rw [nextRecord]
  split
  · exact goes_commitResolvedThen t _ fun t₁ => goes_enter t₁ rfl nofun
  · exact goes_enter t rfl nofun

theorem goes_resolve (t : Turn) (job : Job) : t.Goes (t.resolve job) := by
  rw [resolve]
  split
  · exact goes_commitThen t _ fun t₁ => goes_nextRecord t₁ job
  · exact goes_nextRecord t _
  · split
    · exact (goes_nextRecord _ job).after rfl
    · exact (goes_finish _ rfl).after rfl

theorem goes_fetch (t : Turn) (now deadline : Nat) : t.Goes (t.fetch now deadline) := by
  rw [fetch]
  split
  · exact goes_finish t rfl
  · simp only
    split
    · exact .after (goes_enter _ rfl nofun) rfl
    · exact .after (goes_enter _ rfl nofun) rfl
  · exact .after (goes_enter _ rfl nofun) rfl

theorem goes_fail (t : Turn) (job : Job) (kind : FailureKind) (message : String) :
    t.Goes (t.fail job kind message) := .after (goes_enter _ rfl nofun) rfl

theorem goes_handled {job : Job} (hactivity : t.worker.activity = .working job .handler)
    (millis : Float) (result : HandlerResult) : t.Goes (t.handled millis result) := by
  simp only [handled, hactivity]
  split
  · exact (goes_fail _ job _ _).after rfl
  · exact (goes_resolve _ job).after rfl

theorem goes_decided {job : Job} {failure : RecordFailure}
    (hactivity : t.worker.activity = .working job (.deciding failure)) (now : Nat) (d : Decision) :
    t.Goes (t.decided now d) := by
  simp only [decided, hactivity]
  cases d with
  | proceed => exact (goes_resolve _ job).after rfl
  | stop => exact (goes_commitResolvedThen _ _ fun t₁ => goes_finish t₁ rfl).after rfl
  | retry backoff =>
    simp only
    split
    · exact (goes_commitResolvedThen _ _ fun t₁ => goes_finish t₁ rfl).after rfl
    · exact .after (goes_enter _ rfl nofun) rfl

theorem goes_resume {job : Job} {deadline : Nat}
    (hactivity : t.worker.activity = .working job (.backoff deadline)) (now : Nat) :
    t.Goes (t.resume now) := by
  simp only [resume, hactivity]
  split
  · exact goes_commitResolvedThen _ _ fun t₁ => goes_finish t₁ rfl
  · split
    · exact goes_enter _ rfl nofun
    · exact ⟨rfl, .nothing rfl, by rw [hactivity]; rfl, by rw [hactivity]; exact nofun⟩

/-! ### One event -/

/-- An event leaves a settled worker settled, and unnoticed exactly when it breaks down or
has broken down and nobody took note of it; what it publishes may follow the present phase. -/
structure Passes (ev : WorkerEvent) (t t' : Turn) : Prop where
  settled : t'.worker.Settled
  announces : t.worker.Announces ev.asksToStop t'.worker
  unnoticed : t'.worker.isUnnoticed =
    (t.worker.breaksDownBy ev || (t.worker.isUnnoticed && !ev.takesNote))

variable {ev : WorkerEvent}

theorem Goes.passes {t' : Turn} (h : t.Goes t') (hs : t.worker.Settled)
    (halive : t.worker.activity.isOver = false) (hbreaks : t.worker.breaksDownBy ev = false) :
    Passes ev t t' where
  settled :=
    { isOver := fun hphase => by
        rw [h.phase, hs.not_terminal halive] at hphase
        cases hphase
      closing := h.closing
      told := by
        have := h.alive
        rintro (hactivity | hactivity) <;> simp [hactivity, Activity.isOver] at this
      broken := fun message hactivity => by
        have := h.alive
        simp [hactivity, Activity.isOver] at this }
  announces := h.announces.of_unasked
  unnoticed := by simp [Worker.isUnnoticed, h.alive, halive, hbreaks]

theorem passes_self (hs : t.worker.Settled) (hbreaks : t.worker.breaksDownBy ev = false)
    (hnote : t.worker.isUnnoticed = true → ev.takesNote = false) : Passes ev t t where
  settled := hs
  announces := .nothing rfl
  unnoticed := by
    rw [hbreaks, Bool.false_or]
    cases hun : t.worker.isUnnoticed with
    | false => rfl
    | true => rw [hnote hun]; rfl

/-- What changes neither the activity nor whether the phase is final leaves the rest as it
was. -/
theorem passes_of_activity {t' : Turn} (hs : t.worker.Settled)
    (hbreaks : t.worker.breaksDownBy ev = false) (hnote : ev.takesNote = false)
    (hactivity : t'.worker.activity = t.worker.activity)
    (hphase : t'.worker.phase.isTerminal = t.worker.phase.isTerminal)
    (hannounces : t.worker.Announces ev.asksToStop t'.worker) : Passes ev t t' where
  settled :=
    { isOver := by rw [hactivity, hphase]; exact hs.isOver
      closing := by rw [hactivity]; exact hs.closing
      told := by rw [hactivity, hphase]; exact hs.told
      broken := fun message hpanicked hfinal => by
        rw [hactivity] at hpanicked
        rw [hphase] at hfinal
        rw [hannounces.final hfinal]
        exact hs.broken message hpanicked hfinal }
  announces := hannounces
  unnoticed := by
    rw [Worker.isUnnoticed, hactivity, hphase, hbreaks, hnote, Bool.false_or, Bool.not_false,
      Bool.and_true, Worker.isUnnoticed]

/-- A worker starts, whether or not the broker lets it join. -/
theorem passes_startWith (hs : t.worker.Settled)
    (joined : Except BrokerFault (Session × Broker)) : Passes .start t (t.startWith joined) := by
  rw [startWith]
  split
  next hactivity =>
    have halive : t.worker.activity.isOver = false := by rw [hactivity]; rfl
    simp only
    split
    next s b =>
      -- The phase may change, but from one that is not final to another.
      by_cases hphase : t.worker.phase = .created
      · refine Goes.passes ⟨?_, .next .running ?_ nofun (if_pos hphase), rfl, nofun⟩ hs halive rfl
        · show Phase.isTerminal (List.headD (if t.worker.phase = .created then _ else _) _) = _
          rw [if_pos hphase, hphase]
          rfl
        · rw [hphase]
          exact .inl (by decide)
      · refine Goes.passes ⟨?_, .nothing (if_neg hphase), rfl, nofun⟩ hs halive rfl
        show Phase.isTerminal (List.headD (if t.worker.phase = .created then _ else _) _) = _
        rw [if_neg hphase]
        rfl
    next fault =>
      refine Goes.passes ?_ hs halive rfl
      exact (goes_finish _ rfl).after rfl
  next => exact passes_self hs rfl fun _ => rfl

theorem passes_start (hs : t.worker.Settled) : Passes .start t t.start :=
  passes_startWith hs _

theorem passes_poll (hs : t.worker.Settled) (now : Nat) : Passes .poll t (t.poll now) := by
  rw [poll]
  split
  next hactivity =>
    have halive : t.worker.activity.isOver = false := by rw [hactivity]; rfl
    split
    · exact (goes_finish t rfl).passes hs halive rfl
    · exact (goes_fetch t _ _).passes hs halive rfl
  next hactivity =>
    have halive : t.worker.activity.isOver = false := by rw [hactivity]; rfl
    split
    · exact (goes_finish t rfl).passes hs halive rfl
    · split
      · exact (goes_fetch t _ _).passes hs halive rfl
      · exact passes_self hs rfl fun _ => rfl
  next => exact passes_self hs rfl fun _ => rfl

theorem passes_keyDecoded (hs : t.worker.Settled) (result : Except String Unit) :
    Passes (.keyDecoded result) t (t.keyDecoded result) := by
  unfold keyDecoded
  split
  next hactivity =>
    exact Goes.passes (goes_enter t rfl nofun) hs (by rw [hactivity]; rfl) rfl
  next hactivity => exact (goes_fail t _ _ _).passes hs (by rw [hactivity]; rfl) rfl
  next => exact passes_self hs rfl fun _ => rfl

theorem passes_valueDecoded (hs : t.worker.Settled) (result : Except String Unit) :
    Passes (.valueDecoded result) t (t.valueDecoded result) := by
  unfold valueDecoded
  split
  next hactivity =>
    exact Goes.passes (goes_enter t rfl nofun) hs (by rw [hactivity]; rfl) rfl
  next hactivity => exact (goes_fail t _ _ _).passes hs (by rw [hactivity]; rfl) rfl
  next => exact passes_self hs rfl fun _ => rfl

theorem passes_handled (hs : t.worker.Settled) (millis : Float) (result : HandlerResult) :
    Passes (.handled millis result) t (t.handled millis result) := by
  by_cases h : ∃ job, t.worker.activity = .working job .handler
  · obtain ⟨job, hactivity⟩ := h
    exact (goes_handled hactivity millis result).passes hs (by rw [hactivity]; rfl) rfl
  · rw [handled]
    split
    next job hactivity => exact absurd ⟨job, hactivity⟩ h
    next => exact passes_self hs rfl fun _ => rfl

theorem passes_decided (hs : t.worker.Settled) (now : Nat) (d : Decision) :
    Passes (.decided d) t (t.decided now d) := by
  by_cases h : ∃ job failure, t.worker.activity = .working job (.deciding failure)
  · obtain ⟨job, failure, hactivity⟩ := h
    exact (goes_decided hactivity now d).passes hs (by rw [hactivity]; rfl) rfl
  · rw [decided]
    split
    next job failure hactivity => exact absurd ⟨job, failure, hactivity⟩ h
    next => exact passes_self hs rfl fun _ => rfl

theorem passes_resume (hs : t.worker.Settled) (now : Nat) :
    Passes .resume t (t.resume now) := by
  by_cases h : ∃ job deadline, t.worker.activity = .working job (.backoff deadline)
  · obtain ⟨job, deadline, hactivity⟩ := h
    exact (goes_resume hactivity now).passes hs (by rw [hactivity]; rfl) rfl
  · rw [resume]
    split
    next job deadline hactivity => exact absurd ⟨job, deadline, hactivity⟩ h
    next => exact passes_self hs rfl fun _ => rfl

/-- A worker that ends by itself publishes the final phase it closes with. -/
theorem passes_closing (hs : t.worker.Settled) {p : Phase}
    (hactivity : t.worker.activity = .closing p) (hbreaks : t.worker.breaksDownBy ev = false) :
    Passes ev t t.close := by
  have hp := hs.closing p hactivity
  have hphase : t.worker.phase.isTerminal = false := hs.not_terminal (by rw [hactivity]; rfl)
  simp only [close, hactivity]
  refine ⟨⟨fun _ => rfl, nofun, fun _ => hp, nofun⟩,
    .next p (Phase.precedes_of_terminal hphase hp) (fun h => absurd h (Phase.ne_draining hp))
      rfl, ?_⟩
  show (true && !p.isTerminal) = _
  simp [hp, hbreaks, Worker.isUnnoticed, hactivity, Activity.isOver]

theorem passes_close (hs : t.worker.Settled) : Passes .close t t.close := by
  by_cases h : ∃ p, t.worker.activity = .closing p
  · obtain ⟨p, hactivity⟩ := h
    exact passes_closing hs hactivity rfl
  · rw [close]
    split
    next p hactivity => exact absurd ⟨p, hactivity⟩ h
    next => exact passes_self hs rfl fun _ => rfl

theorem passes_crash (hs : t.worker.Settled) (message : String) :
    Passes (.crash message) t (t.crash message) := by
  rw [crash]
  split
  next hruns =>
    -- The application's code only runs in workers that are not over.
    have halive : t.worker.activity.isOver = false := by
      cases hactivity : t.worker.activity <;>
        simp_all [runsApplication, Activity.isOver]
    have hphase : t.worker.phase.isTerminal = false := hs.not_terminal halive
    refine ⟨⟨fun _ => rfl, nofun, nofun, fun _ _ hfinal => ?_⟩, .nothing rfl, ?_⟩
    · exact absurd (hphase.symm.trans hfinal) (by decide)
    show (true && !t.worker.phase.isTerminal) = (runsApplication t.worker.activity || _)
    rw [hruns, hphase]
    rfl
  next hruns => exact passes_self hs (by simpa [Worker.breaksDownBy] using hruns) fun _ => rfl

theorem announces_requestStop (t : Turn) : t.worker.Announces true t.requestStop.worker := by
  by_cases hphase : t.worker.phase.isTerminal = true
  · exact .nothing (if_pos hphase)
  · exact .next .draining (Phase.precedes_draining (Bool.eq_false_iff.mpr hphase))
      (fun _ => rfl) (if_neg hphase)

theorem passes_requestStop (hs : t.worker.Settled) :
    Passes .requestStop t t.requestStop :=
  passes_of_activity hs rfl rfl rfl t.isTerminal_requestStop t.announces_requestStop

/-- A final phase is published for a worker that has none. -/
theorem passes_reportEnd {t₀ : Turn} (hpublished : t.worker.published = t₀.worker.published)
    (hover : t.worker.activity.isOver = true) (hnote : ev.takesNote = true)
    (hbreaks : t₀.worker.breaksDownBy ev = false) {p : Phase} (hp : p.isTerminal = true)
    (hbroken : ∀ message, t.worker.activity = .panicked message →
      p = .failed (breakdownText message) ∧
        (t.worker.phase.isTerminal = true → t.worker.phase = p)) :
    Passes ev t₀ (t.reportEnd p) := by
  have hterminal : (t.reportEnd p).worker.phase.isTerminal = true := by
    rw [reportEnd]
    split
    next h => exact h
    next => exact hp
  have hactivity : (t.reportEnd p).worker.activity = t.worker.activity := by
    rw [reportEnd]
    split <;> rfl
  refine ⟨⟨fun _ => by rw [hactivity, hover], fun q hq => ?_, fun _ => hterminal,
    fun message hpanicked _ => ?_⟩, ?_, ?_⟩
  · rw [hactivity] at hq
    rw [hq] at hover
    cases hover
  · rw [hactivity] at hpanicked
    obtain ⟨rfl, hfinal⟩ := hbroken message hpanicked
    rw [reportEnd]
    split
    next h => exact hfinal h
    next => rfl
  · refine Worker.Announces.of_published ?_ hpublished
    rw [reportEnd]
    split
    next => exact .nothing rfl
    next h =>
      exact .next p (Phase.precedes_of_terminal (Bool.eq_false_iff.mpr h) hp)
        (fun h => absurd h (Phase.ne_draining hp)) rfl
  · simp [Worker.isUnnoticed, hterminal, hbreaks, hnote]

theorem passes_joined (hs : t.worker.Settled) (hnote : ev.takesNote = true)
    (hbreaks : t.worker.breaksDownBy ev = false) : Passes ev t t.join := by
  rw [join]
  split
  next message hactivity =>
    refine passes_reportEnd rfl (by rw [hactivity]; rfl) hnote hbreaks rfl fun other hother => ?_
    obtain rfl : message = other := by
      rw [hactivity] at hother
      exact Activity.panicked.inj hother
    exact ⟨rfl, hs.broken message hactivity⟩
  next hactivity =>
    -- Nothing is done, so there must have been nothing to take note of.
    refine passes_self hs hbreaks fun hun => ?_
    obtain ⟨message, hpanicked⟩ := hs.panicked_of_unnoticed hun
    exact absurd hpanicked (hactivity message)

theorem passes_abort (hs : t.worker.Settled) : Passes .abort t t.abort := by
  rw [abort]
  split
  next p hactivity => exact passes_closing hs hactivity rfl
  next =>
    split
    next => exact passes_joined hs rfl rfl
    next =>
      refine passes_reportEnd ?_ rfl rfl rfl rfl fun message hpanicked => by cases hpanicked
      rfl

end Turn

/-- **Final phases through one event**, whatever the event is. -/
theorem WorkerEvent.passes (ev : WorkerEvent) (now : Nat) {t : Turn} (hs : t.worker.Settled) :
    Turn.Passes ev t (ev.apply now t) := by
  cases ev with
  | start => exact Turn.passes_start hs
  | poll => exact Turn.passes_poll hs now
  | keyDecoded result => exact Turn.passes_keyDecoded hs result
  | valueDecoded result => exact Turn.passes_valueDecoded hs result
  | handled millis result => exact Turn.passes_handled hs millis result
  | decided d => exact Turn.passes_decided hs now d
  | resume => exact Turn.passes_resume hs now
  | close => exact Turn.passes_close hs
  | crash message => exact Turn.passes_crash hs message
  | requestStop => exact Turn.passes_requestStop hs
  | abandon => exact Turn.passes_of_activity hs rfl rfl rfl rfl (.nothing rfl)
  | join => exact Turn.passes_joined hs rfl rfl
  | abort => exact Turn.passes_abort hs

end StreamDispatch
