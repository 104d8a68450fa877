import StreamDispatch.Number.Word
import StreamDispatch.Telemetry
import StreamDispatch.Worker

/-!
# What workers do

The steps of a worker, one function for each. A step acts on a `Turn`: the worker, the
broker, and the samples written down so far. A step that does not fit what the worker is
doing changes nothing, so that any sequence of steps is a history.

Three kinds of steps make up a history:

* the worker's own: it starts, polls, goes on after a wait, and closes its session at the
  end (`start`, `poll`, `resume`, `close`);
* answers of the application: a key or a value is decoded, a handler returns, a policy
  decides, or one of these breaks down (`keyDecoded`, `valueDecoded`, `handled`, `decided`,
  `crash`);
* what is done to a worker from outside: it is asked to stop, let go of, waited for, or cut
  off (`requestStop`, `abandon`, `join`, `abort`).

Whatever ends a worker, its session leaves the group first.

## Main definitions

* `Turn` and its steps.
* `HandlerResult`.
-/

namespace StreamDispatch

/-- What steps act on. -/
structure Turn where
  worker : Worker
  broker : Broker
  /-- The samples so far, in order. -/
  samples : List Sample

/-- How a call of a handler came out. -/
inductive HandlerResult
  | accepted
  /-- The handler returned an error. -/
  | failed (message : String)
  /-- The handler broke down, with a text if its payload was one. -/
  | panicked (payload : Option String)
  deriving DecidableEq, Repr

/-- The message of a failed call. -/
def HandlerResult.failure? : HandlerResult → Option String
  | .accepted => none
  | .failed message => some message
  | .panicked payload => some ("handler panicked: " ++ payload.getD "non-string payload")

/-- The greatest number of an attempt; later ones all have it. -/
def nextAttempt (attempt : Nat) : Nat := min (attempt + 1) maxWord32

namespace Turn

/-- The name of the worker's registration. -/
def registration (t : Turn) : String := t.worker.plan.registration

/-- Writes down a sample. -/
def emit (t : Turn) (s : Sample) : Turn := { t with samples := t.samples ++ [s] }

/-- Counts something. -/
def count (t : Turn) (f : WorkerMetrics → WorkerMetrics) : Turn :=
  { t with worker := { t.worker with metrics := f t.worker.metrics } }

/-- Goes over to another activity. -/
def enter (t : Turn) (a : Activity) : Turn :=
  { t with worker := { t.worker with activity := a } }

/-- Publishes a phase. -/
def publish (t : Turn) (p : Phase) : Turn :=
  { t with worker := { t.worker with published := p :: t.worker.published } }

/-- The session leaves its group. -/
def leaveGroup (t : Turn) : Turn :=
  let (s, b) := t.worker.session.leave t.broker
  { t with worker := { t.worker with session := s }, broker := b }

/-- The worker is done and will end by itself in a final phase. Leaving the group is a step
of its own, so that other workers may come in between a last commit and the leave. -/
def finish (t : Turn) (p : Phase) : Turn := t.enter (.closing p)

/-- The worker ends because the broker refused a request. -/
def finishOn (t : Turn) (fault : BrokerFault) : Turn :=
  t.finish (.failed (Error.broker fault).message)

/-! ### Committing -/

/-- Commits offsets and goes on with `next`; if that fails the worker ends. -/
def commitThen (t : Turn) (offsets : List CommitOffset) (next : Turn → Turn) : Turn :=
  match t.worker.session.commit offsets .sync t.broker with
  | .ok b =>
    next <|
      ({ t with broker := b }.count .committed).emit
        (.commit t.registration offsets.length true)
  | .error fault => (t.emit (.commit t.registration offsets.length false)).finishOn fault

/-- Commits what is resolved and not yet committed, if the strategy is to commit after each
batch, and goes on with `next`. -/
def commitResolvedThen (t : Turn) (resolved : Dict TopicPartition Int) (next : Turn → Turn) :
    Turn :=
  if resolved.isEmpty || t.worker.plan.strategy ≠ .afterBatch then next t
  else t.commitThen (resolved.entries.map fun e => .after e.1 e.2) next

/-! ### Polling -/

/-- Starts to run with what came of joining the group; a worker that is refused ends. -/
def startWith (t : Turn) (joined : Except BrokerFault (Session × Broker)) : Turn :=
  match t.worker.activity with
  | .unstarted =>
    let t := t.emit (.workerStarted t.registration)
    match joined with
    | .ok (s, b) =>
      -- A worker that was asked to stop before it began is draining, and stays so.
      let published :=
        if t.worker.phase = .created then .running :: t.worker.published
        else t.worker.published
      { t with
        worker := { t.worker with session := s, published := published, activity := .ready }
        broker := b }
    | .error fault => t.finishOn fault
  | _ => t

/-- Starts to run: the session joins its group, which the broker never refuses. -/
def start (t : Turn) : Turn :=
  t.startWith (.ok (t.worker.session.subscribe t.worker.plan.topics t.broker))

/-- Fetches records; without any, the worker waits on until the deadline, and at the deadline
it is about to poll again. -/
def fetch (t : Turn) (now deadline : Nat) : Turn :=
  match t.worker.session.fetch t.worker.plan.listener.maxPollRecords t.broker with
  | .error fault => t.finishOn fault
  | .ok ([], s, b) =>
    let t : Turn := { t with worker := { t.worker with session := s }, broker := b }
    -- Only signals after this fetch are worth another one.
    if deadline ≤ now then t.enter .ready else t.enter (.polling b.signals deadline)
  | .ok (record :: rest, s, b) =>
    let t : Turn := { t with worker := { t.worker with session := s }, broker := b }
    let size := rest.length + 1
    ((t.count (·.batch size)).emit (.pollBatch t.registration size)).enter
      (.working ⟨record, rest, 1, ∅⟩ .key)

/-- Polls, or goes on polling once there is a signal or the deadline is reached. -/
def poll (t : Turn) (now : Nat) : Turn :=
  match t.worker.activity with
  | .ready =>
    if t.worker.stopping then t.finish .stopped
    else t.fetch now (now + t.worker.plan.listener.pollTimeoutMs)
  | .polling seen deadline =>
    if t.worker.stopping then t.finish .stopped
    else if t.broker.signals ≠ seen ∨ deadline ≤ now then t.fetch now deadline
    else t
  | _ => t

/-! ### Resolving records -/

/-- Goes on to the next record of the batch, or ends the batch. -/
def nextRecord (t : Turn) (job : Job) : Turn :=
  match job.rest with
  | [] => t.commitResolvedThen job.resolved (·.enter .ready)
  | record :: rest => t.enter (.working ⟨record, rest, 1, job.resolved⟩ .key)

/-- The record at hand is done: its offset is committed, remembered or stored, as the
strategy says. -/
def resolve (t : Turn) (job : Job) : Turn :=
  let offset := CommitOffset.after job.record.topicPartition job.record.offset
  match t.worker.plan.strategy with
  | .afterRecord => t.commitThen [offset] (·.nextRecord job)
  | .afterBatch =>
    t.nextRecord
      { job with
        resolved := job.resolved.insert job.record.topicPartition job.record.offset }
  | .auto =>
    match t.worker.session.store [offset] with
    | (.ok _, s) => { t with worker := { t.worker with session := s } }.nextRecord job
    | (.error fault, s) => { t with worker := { t.worker with session := s } }.finishOn fault

/-- The attempt has failed, and the policy is asked. -/
def fail (t : Turn) (job : Job) (kind : FailureKind) (message : String) : Turn :=
  (t.count .attemptFailed).enter (.working job (.deciding ⟨kind, message, job.attempt⟩))

/-! ### Answers of the application -/

/-- The key is decoded, or cannot be. -/
def keyDecoded (t : Turn) (result : Except String Unit) : Turn :=
  match t.worker.activity, result with
  | .working job .key, .ok _ => t.enter (.working job .value)
  | .working job .key, .error message => t.fail job (.decoding .key) message
  | _, _ => t

/-- The value is decoded, or cannot be. -/
def valueDecoded (t : Turn) (result : Except String Unit) : Turn :=
  match t.worker.activity, result with
  | .working job .value, .ok _ => t.enter (.working job .handler)
  | .working job .value, .error message => t.fail job (.decoding .value) message
  | _, _ => t

/-- The handler returned after so many milliseconds. -/
def handled (t : Turn) (millis : Float) (result : HandlerResult) : Turn :=
  match t.worker.activity with
  | .working job .handler =>
    let t := (t.count (·.observe millis)).emit (.handlerDuration t.registration millis)
    match result.failure? with
    | some message => t.fail job .handler message
    | none =>
      ((t.count .recordProcessed).emit
        (.outcome t.registration job.record.topic .processed)).resolve job
  | _ => t

/-- The policy decided about a failure. -/
def decided (t : Turn) (now : Nat) (d : Decision) : Turn :=
  match t.worker.activity with
  | .working job (.deciding failure) =>
    let t := t.emit (.decision t.registration d)
    let topic := job.record.topic
    match d with
    | .proceed =>
      ((t.count .recordSkipped).emit (.outcome t.registration topic .skipped)).resolve job
    | .stop =>
      -- The record at hand is not among those that are committed now.
      (t.emit (.outcome t.registration topic .stopped)).commitResolvedThen job.resolved
        (·.finish (.failed s!"{failure.text} ({job.record.place})"))
    | .retry backoff =>
      let t := t.count .retryDecided
      if t.worker.stopping then t.commitResolvedThen job.resolved (·.finish .stopped)
      else t.enter (.working job (.backoff (now + backoff.ceilMillis)))
  | _ => t

/-- Goes on after the wait before another attempt, or ends if asked to stop meanwhile. -/
def resume (t : Turn) (now : Nat) : Turn :=
  match t.worker.activity with
  | .working job (.backoff deadline) =>
    if t.worker.stopping then t.commitResolvedThen job.resolved (·.finish .stopped)
    else if deadline ≤ now then
      -- Another attempt begins with decoding the key again.
      t.enter (.working { job with attempt := nextAttempt job.attempt } .key)
    else t
  | _ => t

/-- The end of a worker that is done: its session leaves the group, and then its final phase
is published. -/
def close (t : Turn) : Turn :=
  match t.worker.activity with
  | .closing p =>
    ((t.leaveGroup.emit (.workerStopped t.registration (p.state == .failed))).publish p).enter
      .ended
  | _ => t

/-- Whether the worker is running code of the application itself, so that a breakdown there
is one of the worker. -/
def runsApplication : Activity → Bool
  | .working _ .key => true
  | .working _ .value => true
  | .working _ (.deciding _) => true
  | _ => false

/-- A decoder or a policy breaks down, and the worker with it. Nothing is published. -/
def crash (t : Turn) (message : String) : Turn :=
  if runsApplication t.worker.activity then t.leaveGroup.enter (.panicked message) else t

/-! ### From outside -/

/-- Asks the worker to stop after what it has begun. -/
def requestStop (t : Turn) : Turn :=
  let published :=
    if t.worker.phase.isTerminal then t.worker.published else .draining :: t.worker.published
  { t with worker := { t.worker with stopping := true, published := published } }

/-- Lets go of the worker, which then stops as if it was asked to. -/
def abandon (t : Turn) : Turn := { t with worker := { t.worker with stopping := true } }

/-- The end of a worker that did not publish it itself. -/
def reportEnd (t : Turn) (p : Phase) : Turn :=
  if t.worker.phase.isTerminal then t
  else (t.emit (.workerStopped t.registration (p.state == .failed))).publish p

/-- The text of a breakdown. -/
def breakdownText (message : String) : String :=
  s!"worker task panicked: task # panicked with message \"{message}\""

/-- Takes note of the end of a worker that is over. -/
def join (t : Turn) : Turn :=
  match t.worker.activity with
  -- Whatever else ends a worker has published the end already.
  | .panicked message => t.reportEnd (.failed (breakdownText message))
  | _ => t

/-- Cuts the worker off, unless it is over. One that is done comes to its end all the same,
since it waits for nothing any more. -/
def abort (t : Turn) : Turn :=
  match t.worker.activity with
  | .closing _ => t.close
  | a => if a.isOver then t.join else (t.leaveGroup.enter .cancelled).reportEnd .stopped

end Turn

end StreamDispatch
