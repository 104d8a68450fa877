import StreamDispatch.Proofs.Telemetry.Series
import StreamDispatch.Proofs.Worker.Settled

/-!
# How the life of a worker is sampled

A worker that begins is sampled by the worker itself, with the first thing that it does. Its end
is sampled in three places: by the worker when it closes, by whoever takes note of a breakdown,
and by whoever cuts it off. The gauge of running workers is right if each worker is sampled once
at either end, so it has to be known which of these happens when.

A worker is *underway* from when it begins until its final phase is published
(`StreamDispatch.Worker.isUnderway`). Each event writes down one sample of a life at most, and
with two of the three that there are the worker begins or ceases to be underway: it begins, or
it ends, in failure or not (`StreamDispatch.Turn.Tells`). The third is a slip. Whoever cuts off a
worker that has not begun writes down an end, and there was no beginning
(`StreamDispatch.Worker.isCutEarlyBy`).

## Main statements

* `StreamDispatch.WorkerEvent.tells`: what each event writes down about the life of a worker.
-/

namespace StreamDispatch

/-- Whether a worker has begun. -/
def Activity.hasBegun : Activity → Bool
  | .unstarted => false
  | _ => true

namespace Worker

/-- Whether a worker has begun and its final phase is not published. -/
def isUnderway (w : Worker) : Bool := w.activity.hasBegun && !w.phase.isTerminal

/-- Whether a worker is reported as failed. -/
def hasFailed (w : Worker) : Bool := w.phase.state == .failed

/-- Whether an event cuts a worker off before it has begun. -/
def isCutEarlyBy (w : Worker) : WorkerEvent → Bool
  | .abort => !w.activity.hasBegun
  | _ => false

variable {w w' : Worker}

theorem isUnderway_iff :
    w.isUnderway = true ↔ w.activity.hasBegun = true ∧ w.phase.isTerminal = false := by
  simp [isUnderway]

theorem isUnderway_of_terminal (h : w.phase.isTerminal = true) : w.isUnderway = false := by
  simp [isUnderway, h]

theorem isUnderway_of_not_begun (h : w.activity.hasBegun = false) : w.isUnderway = false := by
  simp [isUnderway, h]

/-- Only a worker with a final phase is reported as failed. -/
theorem hasFailed_of_not_terminal (h : w.phase.isTerminal = false) : w.hasFailed = false := by
  rw [hasFailed]
  rw [Phase.isTerminal] at h
  cases hstate : w.phase.state <;> simp_all [LifecycleState.isTerminal]

end Worker

namespace Turn

variable {t t' : Turn}

/-- The samples of lives. -/
def life (t : Turn) : List Sample := t.samples.filter Sample.isLife

@[simp] theorem life_count (t : Turn) (f : WorkerMetrics → WorkerMetrics) :
    (t.count f).life = t.life := rfl

theorem life_emit (t : Turn) (s : Sample) :
    (t.emit s).life = t.life ++ if s.isLife then [s] else [] := by
  rw [life, emit, List.filter_append]
  cases h : s.isLife <;> simp [h, life]

/-- Samples of other things do not count. -/
@[simp] theorem life_emit_of_not (t : Turn) {s : Sample} (h : s.isLife = false) :
    (t.emit s).life = t.life := by
  rw [life_emit, h, if_neg Bool.false_ne_true, List.append_nil]

/-! ### Turns without a sample of a life -/

/-- The worker is at something, and neither sample of a life nor phase has come of it. -/
structure Quiet (t t' : Turn) : Prop where
  life : t'.life = t.life
  begun : t'.worker.activity.hasBegun = true
  published : t'.worker.published = t.worker.published

theorem quiet_enter (t : Turn) {a : Activity} (h : a.hasBegun = true) : t.Quiet (t.enter a) where
  life := rfl
  begun := h
  published := rfl

theorem quiet_finish (t : Turn) (p : Phase) : t.Quiet (t.finish p) := quiet_enter t rfl

/-- What was counted, sampled otherwise or sent to the broker before does not matter. -/
theorem Quiet.after {t₁ : Turn} (h : t₁.Quiet t') (hlife : t₁.life = t.life)
    (hpublished : t₁.worker.published = t.worker.published) : t.Quiet t' where
  life := h.life.trans hlife
  begun := h.begun
  published := h.published.trans hpublished

theorem quiet_commitThen (t : Turn) (offsets : List CommitOffset) {next : Turn → Turn}
    (hnext : ∀ t₁ : Turn, t₁.Quiet (next t₁)) : t.Quiet (t.commitThen offsets next) := by
  rw [commitThen]
  split
  next b _ => exact (hnext _).after (life_emit_of_not (count { t with broker := b } _) rfl) rfl
  next => exact (quiet_finish _ _).after (t.life_emit_of_not rfl) rfl

theorem quiet_commitResolvedThen (t : Turn) (resolved : Dict TopicPartition Int)
    {next : Turn → Turn} (hnext : ∀ t₁ : Turn, t₁.Quiet (next t₁)) :
    t.Quiet (t.commitResolvedThen resolved next) := by
  rw [commitResolvedThen]
  split
  · exact hnext t
  · exact quiet_commitThen t _ hnext

theorem quiet_nextRecord (t : Turn) (job : Job) : t.Quiet (t.nextRecord job) := by
  rw [nextRecord]
  split
  · exact quiet_commitResolvedThen t _ fun t₁ => quiet_enter t₁ rfl
  · exact quiet_enter t rfl

theorem quiet_resolve (t : Turn) (job : Job) : t.Quiet (t.resolve job) := by
  rw [resolve]
  split
  · exact quiet_commitThen t _ fun t₁ => quiet_nextRecord t₁ job
  · exact quiet_nextRecord t _
  · split
    · exact (quiet_nextRecord _ job).after rfl rfl
    · exact (quiet_finish _ _).after rfl rfl

theorem quiet_fetch (t : Turn) (now deadline : Nat) : t.Quiet (t.fetch now deadline) := by
  rw [fetch]
  split
  · exact quiet_finish t _
  · simp only
    split
    · exact .after (quiet_enter _ rfl) rfl rfl
    · exact .after (quiet_enter _ rfl) rfl rfl
  · exact .after (quiet_enter _ rfl) (life_emit_of_not _ rfl) rfl

theorem quiet_fail (t : Turn) (job : Job) (kind : FailureKind) (message : String) :
    t.Quiet (t.fail job kind message) := .after (quiet_enter _ rfl) rfl rfl

theorem quiet_handled {job : Job} (hactivity : t.worker.activity = .working job .handler)
    (millis : Float) (result : HandlerResult) : t.Quiet (t.handled millis result) := by
  simp only [handled, hactivity]
  split
  · exact (quiet_fail _ job _ _).after (life_emit_of_not _ rfl) rfl
  · refine (quiet_resolve _ job).after ?_ rfl
    rw [life_emit_of_not _ rfl, life_count, life_emit_of_not _ rfl, life_count]

theorem quiet_decided {job : Job} {failure : RecordFailure}
    (hactivity : t.worker.activity = .working job (.deciding failure)) (now : Nat) (d : Decision) :
    t.Quiet (t.decided now d) := by
  simp only [decided, hactivity]
  cases d with
  | proceed =>
    refine (quiet_resolve _ job).after ?_ rfl
    rw [life_emit_of_not _ rfl, life_count, life_emit_of_not _ rfl]
  | stop =>
    refine (quiet_commitResolvedThen _ _ fun t₁ => quiet_finish t₁ _).after ?_ rfl
    rw [life_emit_of_not _ rfl, life_emit_of_not _ rfl]
  | retry backoff =>
    have hlife : ((t.emit (.decision t.registration (.retry backoff))).count .retryDecided).life =
        t.life := life_emit_of_not _ rfl
    simp only
    split
    · exact (quiet_commitResolvedThen _ _ fun t₁ => quiet_finish t₁ _).after hlife rfl
    · exact .after (quiet_enter _ rfl) hlife rfl

/-! ### One event -/

/-- **What an event writes down about the life of a worker.** -/
inductive Tells (ev : WorkerEvent) (t t' : Turn) : Prop
  | nothing (life : t'.life = t.life) (underway : t'.worker.isUnderway = t.worker.isUnderway)
      (failed : t'.worker.hasFailed = t.worker.hasFailed)
      (late : t.worker.isCutEarlyBy ev = false)
  | begins (life : t'.life = t.life ++ [.workerStarted t.registration])
      (before : t.worker.isUnderway = false) (underway : t'.worker.isUnderway = true)
      (failed : t'.worker.hasFailed = t.worker.hasFailed)
      (late : t.worker.isCutEarlyBy ev = false)
  | ends (life : t'.life = t.life ++ [.workerStopped t.registration t'.worker.hasFailed])
      (before : t.worker.isUnderway = true) (after : t'.worker.isUnderway = false)
      (unfailed : t.worker.hasFailed = false) (late : t.worker.isCutEarlyBy ev = false)
  /-- An end is written down that had no beginning. -/
  | cutEarly (life : t'.life = t.life ++ [.workerStopped t.registration false])
      (before : t.worker.isUnderway = false) (underway : t'.worker.isUnderway = false)
      (failed : t'.worker.hasFailed = t.worker.hasFailed)
      (early : t.worker.isCutEarlyBy ev = true)

variable {ev : WorkerEvent}

theorem tells_self (h : t.worker.isCutEarlyBy ev = false) : Tells ev t t :=
  .nothing rfl rfl rfl h

/-- A worker that has begun and goes on tells nothing. -/
theorem Quiet.tells (h : t.Quiet t') (hbegun : t.worker.activity.hasBegun = true)
    (hlate : t.worker.isCutEarlyBy ev = false) : Tells ev t t' := by
  have hphase : t'.worker.phase = t.worker.phase := by
    rw [Worker.phase, h.published, Worker.phase]
  refine .nothing h.life ?_ ?_ hlate
  · rw [Worker.isUnderway, Worker.isUnderway, hphase, h.begun, hbegun]
  · rw [Worker.hasFailed, hphase, Worker.hasFailed]

/-- A worker that starts tells so, whether or not the broker lets it join. -/
theorem tells_startWith (hs : t.worker.Settled) (joined : Except BrokerFault (Session × Broker)) :
    Tells .start t (t.startWith joined) := by
  have hsettled := (passes_startWith hs joined).settled
  by_cases h : t.worker.activity = .unstarted
  · have hphase : t.worker.phase.isTerminal = false := hs.not_terminal (by rw [h]; rfl)
    have hbegun : (t.startWith joined).worker.activity.hasBegun = true ∧
        (t.startWith joined).worker.activity.isOver = false := by
      simp only [startWith, h]
      cases joined <;> exact ⟨rfl, rfl⟩
    have hphase' := hsettled.not_terminal hbegun.2
    refine .begins ?_ (Worker.isUnderway_of_not_begun (by rw [h]; rfl))
      (Worker.isUnderway_iff.mpr ⟨hbegun.1, hphase'⟩) ?_ rfl
    · simp only [startWith, h]
      cases joined <;> exact t.life_emit _
    · rw [Worker.hasFailed_of_not_terminal hphase', Worker.hasFailed_of_not_terminal hphase]
  · rw [startWith]
    split
    next hactivity => exact absurd hactivity h
    next => exact tells_self rfl

theorem tells_start (hs : t.worker.Settled) : Tells .start t t.start := tells_startWith hs _

theorem tells_poll (now : Nat) : Tells .poll t (t.poll now) := by
  rw [poll]
  split
  next hactivity =>
    have hbegun : t.worker.activity.hasBegun = true := by rw [hactivity]; rfl
    split
    · exact (quiet_finish t _).tells hbegun rfl
    · exact (quiet_fetch t _ _).tells hbegun rfl
  next hactivity =>
    have hbegun : t.worker.activity.hasBegun = true := by rw [hactivity]; rfl
    split
    · exact (quiet_finish t _).tells hbegun rfl
    · split
      · exact (quiet_fetch t _ _).tells hbegun rfl
      · exact tells_self rfl
  next => exact tells_self rfl

theorem tells_keyDecoded (result : Except String Unit) :
    Tells (.keyDecoded result) t (t.keyDecoded result) := by
  unfold keyDecoded
  split
  next hactivity => exact Quiet.tells (quiet_enter t rfl) (by rw [hactivity]; rfl) rfl
  next hactivity => exact (quiet_fail t _ _ _).tells (by rw [hactivity]; rfl) rfl
  next => exact tells_self rfl

theorem tells_valueDecoded (result : Except String Unit) :
    Tells (.valueDecoded result) t (t.valueDecoded result) := by
  unfold valueDecoded
  split
  next hactivity => exact Quiet.tells (quiet_enter t rfl) (by rw [hactivity]; rfl) rfl
  next hactivity => exact (quiet_fail t _ _ _).tells (by rw [hactivity]; rfl) rfl
  next => exact tells_self rfl

theorem tells_handled (millis : Float) (result : HandlerResult) :
    Tells (.handled millis result) t (t.handled millis result) := by
  by_cases h : ∃ job, t.worker.activity = .working job .handler
  · obtain ⟨job, hactivity⟩ := h
    exact (quiet_handled hactivity millis result).tells (by rw [hactivity]; rfl) rfl
  · rw [handled]
    split
    next job hactivity => exact absurd ⟨job, hactivity⟩ h
    next => exact tells_self rfl

theorem tells_decided (now : Nat) (d : Decision) : Tells (.decided d) t (t.decided now d) := by
  by_cases h : ∃ job failure, t.worker.activity = .working job (.deciding failure)
  · obtain ⟨job, failure, hactivity⟩ := h
    exact (quiet_decided hactivity now d).tells (by rw [hactivity]; rfl) rfl
  · rw [decided]
    split
    next job failure hactivity => exact absurd ⟨job, failure, hactivity⟩ h
    next => exact tells_self rfl

theorem tells_resume (now : Nat) : Tells .resume t (t.resume now) := by
  rw [resume]
  split
  next job deadline hactivity =>
    have hbegun : t.worker.activity.hasBegun = true := by rw [hactivity]; rfl
    split
    · exact (quiet_commitResolvedThen _ _ fun t₁ => quiet_finish t₁ _).tells hbegun rfl
    · split
      · exact Quiet.tells (quiet_enter t rfl) hbegun rfl
      · exact tells_self rfl
  next => exact tells_self rfl

/-! ### The three ends -/

/-- A worker that closes tells whether it has failed. -/
theorem tells_closing (hs : t.worker.Settled) {p : Phase} (hactivity : t.worker.activity = .closing p)
    (hlate : t.worker.isCutEarlyBy ev = false) : Tells ev t t.close := by
  have hphase : t.worker.phase.isTerminal = false := hs.not_terminal (by rw [hactivity]; rfl)
  have hp := hs.closing p hactivity
  simp only [close, hactivity]
  refine .ends (t.leaveGroup.life_emit _) ?_ (Worker.isUnderway_of_terminal hp)
    (Worker.hasFailed_of_not_terminal hphase) hlate
  exact Worker.isUnderway_iff.mpr ⟨by rw [hactivity]; rfl, hphase⟩

theorem tells_close (hs : t.worker.Settled) : Tells .close t t.close := by
  by_cases h : ∃ p, t.worker.activity = .closing p
  · obtain ⟨p, hactivity⟩ := h
    exact tells_closing hs hactivity rfl
  · rw [close]
    split
    next p hactivity => exact absurd ⟨p, hactivity⟩ h
    next => exact tells_self rfl

/-- Whoever takes note of a breakdown tells of it, unless that was done already. -/
theorem tells_join (hlate : t.worker.isCutEarlyBy ev = false) : Tells ev t t.join := by
  rw [join]
  split
  next message hactivity =>
    rw [reportEnd]
    split
    next => exact tells_self hlate
    next hphase =>
      rw [Bool.not_eq_true] at hphase
      refine .ends (t.life_emit _) ?_ (Worker.isUnderway_of_terminal rfl)
        (Worker.hasFailed_of_not_terminal hphase) hlate
      exact Worker.isUnderway_iff.mpr ⟨by rw [hactivity]; rfl, hphase⟩
  next => exact tells_self hlate

/-- **Whoever cuts a worker off tells of an end, and there was none if the worker had not
begun.** -/
theorem tells_abort (hs : t.worker.Settled) : Tells .abort t t.abort := by
  rw [abort]
  split
  next p hactivity =>
    exact tells_closing hs hactivity (by rw [Worker.isCutEarlyBy, hactivity]; rfl)
  next =>
    split
    next hover =>
      refine tells_join ?_
      cases hactivity : t.worker.activity <;>
        simp_all [Worker.isCutEarlyBy, Activity.isOver, Activity.hasBegun]
    next hover =>
      have hphase : t.worker.phase.isTerminal = false :=
        hs.not_terminal (Bool.eq_false_iff.mpr hover)
      have hphase' : ¬ (t.leaveGroup.enter .cancelled).worker.phase.isTerminal = true :=
        Bool.eq_false_iff.mp hphase
      rw [reportEnd, if_neg hphase']
      cases hbegun : t.worker.activity.hasBegun with
      | false =>
        refine .cutEarly (life_emit _ _) (Worker.isUnderway_of_not_begun hbegun)
          (Worker.isUnderway_of_terminal rfl) ?_ (by rw [Worker.isCutEarlyBy, hbegun]; rfl)
        rw [Worker.hasFailed_of_not_terminal hphase]
        rfl
      | true =>
        exact .ends (life_emit _ _) (Worker.isUnderway_iff.mpr ⟨hbegun, hphase⟩)
          (Worker.isUnderway_of_terminal rfl) (Worker.hasFailed_of_not_terminal hphase)
          (by rw [Worker.isCutEarlyBy, hbegun]; rfl)

theorem tells_crash (message : String) : Tells (.crash message) t (t.crash message) := by
  rw [crash]
  split
  next hruns =>
    have hbegun : t.worker.activity.hasBegun = true := by
      cases hactivity : t.worker.activity <;> simp_all [runsApplication, Activity.hasBegun]
    exact Quiet.tells ⟨rfl, rfl, rfl⟩ hbegun rfl
  next => exact tells_self rfl

/-- Being asked to stop is neither a beginning nor an end. -/
theorem tells_requestStop : Tells .requestStop t t.requestStop := by
  refine .nothing rfl ?_ ?_ rfl
  · rw [Worker.isUnderway, isTerminal_requestStop]
    rfl
  · rw [Worker.hasFailed, phase_requestStop]
    split
    next => rfl
    next hphase =>
      rw [Worker.hasFailed_of_not_terminal (Bool.eq_false_iff.mpr hphase)]
      rfl

end Turn

/-- **The life of a worker through one event**, whatever the event is. -/
theorem WorkerEvent.tells (ev : WorkerEvent) (now : Nat) {t : Turn} (hs : t.worker.Settled) :
    Turn.Tells ev t (ev.apply now t) := by
  cases ev with
  | start => exact Turn.tells_start hs
  | poll => exact Turn.tells_poll now
  | keyDecoded result => exact Turn.tells_keyDecoded result
  | valueDecoded result => exact Turn.tells_valueDecoded result
  | handled millis result => exact Turn.tells_handled millis result
  | decided d => exact Turn.tells_decided now d
  | resume => exact Turn.tells_resume now
  | close => exact Turn.tells_close hs
  | crash message => exact Turn.tells_crash message
  | requestStop => exact Turn.tells_requestStop
  | abandon => exact .nothing rfl rfl rfl rfl
  | join => exact Turn.tells_join rfl
  | abort => exact Turn.tells_abort hs

end StreamDispatch
