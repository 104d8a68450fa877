import StreamDispatch.Registration
import StreamDispatch.Worker.Step

/-!
# The engine

The engine takes registrations and runs their workers at one broker. It holds a *listener*
for each registration it has taken: the workers, or the reason why there are none because
the live topics were not as expected. Names of listeners are unique, and a listener that
has come to its end makes room for another of the same name.

The whole of it, clock, broker, engine, samples and all workers that were ever started, is
a `System`. Workers are held by the system and named by their place in it, so that they
live on when the engine is gone.

## Main definitions

* `Listener`, `Engine`, `System`.
* `System.turn`: a step of one worker.
* `ListenerStatus`, `System.status`.
-/

namespace StreamDispatch

/-- A registration that the engine has taken. -/
structure Listener where
  name : String
  /-- Why it has no workers, if the live topics were not as expected. -/
  rejection : Option String
  /-- How long its workers may take to finish, in milliseconds. -/
  shutdownTimeoutMs : Nat
  /-- The places of its workers in the system. -/
  workers : List Nat
  deriving DecidableEq, Repr, Inhabited

/-- What the engine holds. -/
structure Engine where
  settings : Option Settings
  /-- The registrations it has taken, in order. -/
  listeners : List Listener
  deriving DecidableEq, Inhabited

/-- An engine without settings and registrations. -/
def Engine.empty : Engine := ⟨none, []⟩

/-- The listener of a name. -/
def Engine.find? (e : Engine) (name : String) : Option Listener :=
  e.listeners.find? (·.name == name)

/-- The whole of it. -/
structure System where
  /-- The time, in milliseconds. -/
  now : Nat
  broker : Broker
  /-- All workers that were ever started. -/
  workers : List Worker
  engine : Option Engine
  /-- Everything that was worth counting, in order. -/
  samples : List Sample

namespace System

/-- A system with an empty broker and a new engine. -/
def empty : System := ⟨0, .empty, [], some .empty, []⟩

/-- One step of the worker at a place. -/
def turn (sys : System) (place : Nat) (step : Turn → Turn) : System :=
  match sys.workers[place]? with
  | none => sys
  | some w =>
    let t := step ⟨w, sys.broker, sys.samples⟩
    { sys with
      workers := sys.workers.set place t.worker
      broker := t.broker
      samples := t.samples }

/-- The same step for several workers in turn. -/
def turns (sys : System) (places : List Nat) (step : Turn → Turn) : System :=
  places.foldl (fun sys place => sys.turn place step) sys

end System

/-! ### Status -/

/-- What is reported of a worker. -/
structure WorkerStatus where
  id : Nat
  client : String
  phase : Phase
  metrics : WorkerMetrics

/-- What is reported of a registration. -/
structure ListenerStatus where
  name : String
  state : LifecycleState
  /-- Why it has no workers. -/
  failure : Option String
  workers : List WorkerStatus

/-- What is reported of a worker. -/
def Worker.status (w : Worker) : WorkerStatus :=
  ⟨w.plan.id, w.client, w.phase, w.metrics.snapshot⟩

/-- The numbers of the workers that have failed. -/
def ListenerStatus.failedWorkers (s : ListenerStatus) : List Nat :=
  (s.workers.filter fun w => w.phase.state == .failed).map (·.id)

namespace System

/-- The workers of a listener. -/
def workersOf (sys : System) (l : Listener) : List Worker :=
  l.workers.filterMap fun place => sys.workers[place]?

/-- The state of a listener: that of its workers together, or failed without workers. -/
def stateOf (sys : System) (l : Listener) : LifecycleState :=
  match sys.workersOf l with
  -- Only a rejected listener is without workers.
  | [] => if l.rejection.isSome then .failed else .running
  | workers => .aggregate (workers.map (·.phase.state))

/-- What is reported of a listener. -/
def statusOf (sys : System) (l : Listener) : ListenerStatus :=
  ⟨l.name, sys.stateOf l, l.rejection, (sys.workersOf l).map Worker.status⟩

/-- What is reported of all listeners, in the order in which they were taken. -/
def status (sys : System) : List ListenerStatus :=
  match sys.engine with
  | some e => e.listeners.map sys.statusOf
  | none => []

/-! ### Stopping -/

/-- Asks all workers of the engine to stop. -/
def requestStop (sys : System) : System :=
  match sys.engine with
  | some e => sys.turns (e.listeners.flatMap (·.workers)) Turn.requestStop
  | none => sys

/-- Gives the engine up; its workers stop as if they were asked to. -/
def dropEngine (sys : System) : System :=
  match sys.engine with
  | some e =>
    { sys.turns (e.listeners.flatMap (·.workers)) Turn.abandon with engine := none }
  | none => sys

/-- A new engine takes the place of the one that is given up. -/
def renewEngine (sys : System) : System := { sys.dropEngine with engine := some .empty }

end System

end StreamDispatch
