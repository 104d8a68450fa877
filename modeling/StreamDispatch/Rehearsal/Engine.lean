import StreamDispatch.Engine.Submit
import StreamDispatch.Rehearsal.Script

/-!
# Rehearsing the engine

A `Rehearsal` runs a system with scripted applications. One worker runs at a time, and it
runs until it waits: for records, for the end of a delay, or for its handler. Handlers take
no time. The clock moves only while everything waits, to the earliest time at which
something happens, and it stands still while a handler is held up.

Loops that are bounded by what the scripts make of them carry fuel, `Rehearsal.patience`;
a rehearsal that comes to its end does not use it up.

## Main definitions

* `Rehearsal`, `Rehearsal.submit`.
* `Rehearsal.slice`, `Rehearsal.round`, `Rehearsal.settle`: one worker, every worker once,
  all of them until they wait.
* `Rehearsal.advance`, `Rehearsal.waitFor`, `Rehearsal.shutdown`, `Rehearsal.shutdownNow`.
-/

namespace StreamDispatch

/-- A call of a handler, as it is written down. -/
structure CallEntry where
  call : HandlerCall
  /-- The place of the record. -/
  place : String

/-- A decision of a policy, as it is written down. -/
structure RulingEntry where
  /-- The name that the registration was given. -/
  name : String
  record : RawRecord
  failure : RecordFailure
  decision : Decision

/-- A registration with what its application needs to know. -/
structure Application where
  /-- The name that it was given. -/
  givenName : String
  /-- Whether decisions of its policy are written down. -/
  noted : Bool
  registration : Registration ScriptedDecoder Script

/-- A system with scripted applications. -/
structure Rehearsal where
  system : System
  /-- The applications that were submitted. -/
  applications : List Application
  /-- The application of each worker. -/
  owners : List Nat
  /-- How the call of the handler of each worker will come out. -/
  pending : Dict Nat HandlerResult
  /-- The workers whose handlers are held up. -/
  held : List Nat
  /-- The calls since they were last asked for, the latest first. -/
  calls : List CallEntry
  /-- The decisions since they were last asked for, the latest first. -/
  rulings : List RulingEntry

namespace Rehearsal

/-- A new system. -/
def empty : Rehearsal := ⟨.empty, [], [], ∅, [], [], []⟩

/-- How many rounds of anything are waited for. -/
def patience : Nat := 100000000

/-- Applies a step to a worker. -/
def turn (r : Rehearsal) (place : Nat) (step : Turn → Turn) : Rehearsal :=
  { r with system := r.system.turn place step }

/-- The number and the application of a worker. -/
def applicationOf (r : Rehearsal) (place : Nat) : Option (Nat × Application) :=
  match r.owners[place]? with
  | some i => (r.applications[i]?).map fun app => (i, app)
  | none => none

/-! ### One worker -/

/-- Answers a question to a decoder. -/
def decode (r : Rehearsal) (place : Nat) (decoder : ScriptedDecoder) (topic : String)
    (data : Option Bytes) (step : Except String Unit → Turn → Turn) : Rehearsal :=
  match decoder.run topic data with
  | .error message => r.turn place (·.crash message)
  | .ok (.error e) => r.turn place (step (.error e.message))
  | .ok (.ok _) => r.turn place (step (.ok ()))

/-- The datum that a decoder makes of data. -/
def datumOf (decoder : ScriptedDecoder) (topic : String) (data : Option Bytes) : Datum :=
  match decoder.run topic data with
  | .ok (.ok d) => d
  | _ => .absent

/-- The call of a handler for the record at hand. -/
def callOf (w : Worker) (app : Application) (job : Job) : HandlerCall where
  context := .ofRecord w.plan.registration w.plan.id job.attempt job.record
    w.plan.listener.metadataFields
  key := datumOf app.registration.keyDecoder job.record.topic job.record.key
  value := datumOf app.registration.valueDecoder job.record.topic job.record.payload

/-- Calls a handler: the call is written down, and how it will come out is settled. -/
def call (r : Rehearsal) (place : Nat) (w : Worker) (i : Nat) (app : Application)
    (job : Job) : Rehearsal :=
  let call := callOf w app job
  let ((result, hold), script) := app.registration.handler.answer call
  { r with
    applications :=
      r.applications.set i
        { app with registration := { app.registration with handler := script } }
    pending := r.pending.insert place result
    held := if hold then r.held ++ [place] else r.held
    calls := ⟨call, job.record.place⟩ :: r.calls }

/-- Asks a policy about a failure. -/
def rule (r : Rehearsal) (place : Nat) (app : Application) (job : Job)
    (failure : RecordFailure) : Rehearsal :=
  match app.registration.policy.decide job.record failure with
  | .error message => r.turn place (·.crash message)
  | .ok d =>
    let r :=
      if app.noted then
        { r with rulings := ⟨app.givenName, job.record, failure, d⟩ :: r.rulings }
      else r
    r.turn place (·.decided r.system.now d)

/-- Lets a worker do the next thing: the rehearsal afterwards, and whether the worker can go
on at once. `none` if it cannot do anything now. -/
def next? (r : Rehearsal) (place : Nat) (w : Worker) (i : Nat) (app : Application) :
    Option (Rehearsal × Bool) :=
  let now := r.system.now
  match w.activity with
  | .unstarted => some (r.turn place Turn.start, true)
  | .ready => some (r.turn place (·.poll now), true)
  | .polling seen deadline =>
    if w.stopping || decide (r.system.broker.signals ≠ seen) || decide (deadline ≤ now) then
      some (r.turn place (·.poll now), true)
    else none
  | .working job .key =>
    some (r.decode place app.registration.keyDecoder job.record.topic job.record.key
      (fun result t => t.keyDecoded result), true)
  | .working job .value =>
    some (r.decode place app.registration.valueDecoder job.record.topic job.record.payload
      (fun result t => t.valueDecoded result), true)
  | .working job .handler =>
    match r.pending.get? place with
    | none => some (r.call place w i app job, false)
    | some result =>
      if r.held.contains place then none
      else
        some ({ r with pending := r.pending.erase place }.turn place
          (·.handled 0 result), true)
  | .working job (.deciding failure) => some (r.rule place app job failure, true)
  | .working _ (.backoff deadline) =>
    if w.stopping || decide (deadline ≤ now) then
      some (r.turn place (·.resume now), true)
    else none
  | .closing _ => some (r.turn place Turn.close, true)
  | .ended => none
  | .cancelled => none
  | .panicked _ => none

/-- Runs a worker until it waits; also whether it did anything. -/
def sliceFrom : (fuel : Nat) → (busy : Bool) → Rehearsal → (place : Nat) → Rehearsal × Bool
  | 0, busy, r, _ => (r, busy)
  | fuel + 1, busy, r, place =>
    match r.system.workers[place]?, r.applicationOf place with
    | some w, some (i, app) =>
      match r.next? place w i app with
      | none => (r, busy)
      | some (r, false) => (r, true)
      | some (r, true) => sliceFrom fuel true r place
    | _, _ => (r, busy)

/-- Runs a worker until it waits; also whether it did anything. -/
def slice (r : Rehearsal) (place : Nat) : Rehearsal × Bool := sliceFrom patience false r place

/-! ### All workers -/

/-- Runs every worker once, in the order in which they were started; also whether one of them
did anything. -/
def round (r : Rehearsal) : Rehearsal × Bool :=
  (List.range r.system.workers.length).foldl
    (fun (acc : Rehearsal × Bool) place =>
      let (r, busy) := acc.1.slice place
      (r, acc.2 || busy))
    (r, false)

/-- When a worker that waits goes on by itself. -/
def deadline? (w : Worker) : Option Nat :=
  match w.activity with
  | .polling _ deadline => some deadline
  | .working _ (.backoff deadline) => some deadline
  | _ => none

/-- The earliest time at which a worker goes on by itself. -/
def nextDeadline? (r : Rehearsal) : Option Nat := (r.system.workers.filterMap deadline?).min?

/-- Moves the clock. -/
def setClock (r : Rehearsal) (now : Nat) : Rehearsal :=
  { r with system := { r.system with now := max r.system.now now } }

/-- Runs until a condition holds, which is looked at after every round; until everything
waits at time `limit`; or until everything waits and a handler is held up. Also whether the
condition holds. -/
def runFrom : (fuel : Nat) → (limit : Nat) → (Rehearsal → Bool) → Rehearsal → Rehearsal × Bool
  | 0, _, _, r => (r, false)
  | fuel + 1, limit, done, r =>
    if done r then (r, true)
    else
      let (r, busy) := r.round
      if busy then runFrom fuel limit done r
      else if !r.held.isEmpty then (r, false)
      else
        match r.nextDeadline? with
        | some deadline =>
          if deadline ≤ limit then runFrom fuel limit done (r.setClock deadline)
          else (r.setClock limit, false)
        | none => (r.setClock limit, false)

/-- Runs until a condition holds, at most until time `limit`. -/
def run (r : Rehearsal) (limit : Nat) (done : Rehearsal → Bool) : Rehearsal × Bool :=
  runFrom patience limit done r

/-- Lets everything run for a while; it ends early when a handler is held up. -/
def advance (r : Rehearsal) (ms : Nat) : Rehearsal :=
  (r.run (r.system.now + ms) fun _ => false).1

/-- Runs until everything waits, without moving the clock. -/
def settle (r : Rehearsal) : Rehearsal := (r.run r.system.now fun _ => false).1

/-- Releases the handlers that are held up. -/
def release (r : Rehearsal) : Rehearsal := { r with held := [] }

/-! ### The engine -/

/-- Submits a registration. -/
def submit (r : Rehearsal) (givenName : String) (noted : Bool)
    (registration : Registration ScriptedDecoder Script) :
    Option (Except SubmitError Listener) × Rehearsal :=
  let (answer, system) := r.system.submit registration
  let started := system.workers.length - r.system.workers.length
  let r := { r with
    system := system
    applications := r.applications ++ [⟨givenName, noted, registration⟩]
    owners := r.owners ++ List.replicate started r.applications.length }
  (answer, r)

/-- The listener of a name. -/
def listener? (r : Rehearsal) (name : String) : Option Listener :=
  r.system.engine.bind fun e => e.find? name

/-- Waits until all workers of a listener are at their end; also whether they are. -/
def waitTerminal (r : Rehearsal) (l : Listener) (limitMs : Nat) : Rehearsal × Bool :=
  r.run (r.system.now + limitMs) fun r =>
    (r.system.workersOf l).all fun w => w.phase.isTerminal

/-- Waits until a worker reaches a state or its end; also whether it did. -/
def waitState (r : Rehearsal) (place : Nat) (state : LifecycleState) (limitMs : Nat) :
    Rehearsal × Bool :=
  r.run (r.system.now + limitMs) fun r =>
    match r.system.workers[place]? with
    | some w => w.phase.state == state || w.phase.isTerminal
    | none => true

/-- Whether the worker at a place is over, if there is one. -/
def isOver (place : Nat) (r : Rehearsal) : Bool :=
  match r.system.workers[place]? with
  | some w => w.activity.isOver
  | none => true

/-- Waits for a worker that was asked to stop, and cuts it off at the deadline. -/
def joinWorker (deadline : Nat) (r : Rehearsal) (place : Nat) : Rehearsal :=
  if r.isOver place then r.turn place Turn.join
  else if deadline ≤ r.system.now then r.turn place Turn.abort
  else
    let (r, done) := r.run deadline (isOver place)
    r.turn place (if done then Turn.join else Turn.abort)

/-- Waits for all workers of the engine, which were asked to stop at time `requested`, and
gives the engine up. -/
def joinAll (r : Rehearsal) (requested : Nat) : List ListenerStatus × Rehearsal :=
  match r.system.engine with
  | none => ([], r)
  | some e =>
    let r := e.listeners.foldl
      (fun r l => l.workers.foldl (joinWorker (requested + l.shutdownTimeoutMs)) r) r
    (r.system.status, { r with system := { r.system with engine := none } })

/-- The states of all workers of the engine. -/
def workerStates (r : Rehearsal) : List LifecycleState :=
  match r.system.engine with
  | none => []
  | some e => (e.listeners.flatMap r.system.workersOf).map (·.phase.state)

/-- Stops the engine: all workers are asked to stop, and cut off if they take too long. -/
def shutdown (r : Rehearsal) : List ListenerStatus × Rehearsal :=
  ({ r with system := r.system.requestStop }).joinAll r.system.now

/-- Stops the engine while handlers are held up, and releases them once the workers are asked
to stop. Also the states of the workers at that moment. -/
def shutdownReleasing (r : Rehearsal) :
    List LifecycleState × List ListenerStatus × Rehearsal :=
  let requested := r.system.now
  let r := { r with system := r.system.requestStop }
  let states := r.workerStates
  let (status, r) := r.release.joinAll requested
  (states, status, r)

/-- Stops the engine while handlers are held up, lets the other workers finish, and then lets
time pass until the rest are cut off; the handlers are released afterwards. Also the states
of the workers before. -/
def shutdownAborting (r : Rehearsal) (ms : Nat) :
    List LifecycleState × List ListenerStatus × Rehearsal :=
  let requested := r.system.now
  let r := { r with system := r.system.requestStop }
  let states := r.workerStates
  let (status, r) := (r.settle.setClock (requested + ms)).joinAll requested
  (states, status, r.release)

/-- Cuts a worker off; unless it was over, the others get to run once. -/
def cutOff (r : Rehearsal) (place : Nat) : Rehearsal :=
  let r' := r.turn place Turn.abort
  if r.isOver place then r' else r'.round.1

/-- Cuts off the workers of one listener after the other; the status of each listener is taken
when its workers are cut off, and comes after those that were taken before. -/
def cutOffAll (r : Rehearsal) (listeners : List Listener) (statuses : List ListenerStatus) :
    List ListenerStatus × Rehearsal :=
  listeners.foldl
    (fun (acc : List ListenerStatus × Rehearsal) l =>
      let r := l.workers.foldl cutOff acc.2
      (acc.1 ++ [r.system.statusOf l], r))
    (statuses, r)

/-- Cuts off all workers of the engine, one after the other. -/
def shutdownNow (r : Rehearsal) : List ListenerStatus × Rehearsal :=
  match r.system.engine with
  | none => ([], r)
  | some e =>
    let (statuses, r) := r.cutOffAll e.listeners []
    (statuses, { r with system := { r.system with engine := none } }.release)

/-- Gives the engine up; also whether there was one. -/
def dropEngine (r : Rehearsal) : Bool × Rehearsal :=
  (r.system.engine.isSome, { r with system := r.system.dropEngine })

/-- Replaces the engine by a new one. -/
def renewEngine (r : Rehearsal) : Rehearsal :=
  { r with system := r.system.renewEngine }

/-! ### What was written down -/

/-- The calls since they were last asked for, by registration and worker. -/
def takeCalls (r : Rehearsal) : List CallEntry × Rehearsal :=
  let le (a b : CallEntry) : Bool :=
    match compare a.call.context.registration b.call.context.registration with
    | .lt => true
    | .gt => false
    | .eq => decide (a.call.context.worker ≤ b.call.context.worker)
  (r.calls.reverse.mergeSort le, { r with calls := [] })

/-- The decisions since they were last asked for, by name, topic and partition. -/
def takeRulings (r : Rehearsal) : List RulingEntry × Rehearsal :=
  let le (a b : RulingEntry) : Bool :=
    match compare a.name b.name with
    | .lt => true
    | .gt => false
    | .eq => (compare a.record.topicPartition b.record.topicPartition).isLE
  (r.rulings.reverse.mergeSort le, { r with rulings := [] })

end Rehearsal

end StreamDispatch
